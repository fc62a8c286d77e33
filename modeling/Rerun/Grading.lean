import Rerun.Run
import Rerun.Value.Text

/-!
Grading: a program is run on each test case with the whole input queued, on a session of its own,
and a checker compares what it shows with what was expected.
-/

namespace Rerun

open Sandbox

/-- How an output is compared with what was expected. -/
inductive Checker where
  | exactMatch
  | floatIsclose
  | unorderedListEqual
  deriving DecidableEq, Inhabited

namespace Checker

def all : List (String × Checker) := [("exact_match", .exactMatch),
  ("float_isclose", .floatIsclose), ("unordered_list_equal", .unorderedListEqual)]

/-- The checker of a name; no name, or an empty one, is that of an exact match. -/
def named (name : Option String) : Except Failure Checker :=
  let given := name.getD ""
  match all.lookup (if given = "" then "exact_match" else given) with
  | some c => .ok c
  | none => .error (.badValue ("Unknown checker " ++ Text.quoted given ++ " (expected one of: " ++
      String.intercalate ", " (all.map (·.1)) ++ ")"))

def sameText (got want : String) : Bool := Text.strip got = Text.strip want

def sortWords (ws : List String) : List String := ws.mergeSort fun a b => a ≤ b

def sameWords (got want : String) : Bool :=
  sortWords (Text.words got) = sortWords (Text.words want)

/-- A value as a floating-point number, if it is or spells one. -/
def number? : Value → Except Failure (Option Binary64)
  | .float x => .ok (some x)
  | .str s => .ok (Binary64.read? s)
  | .bytes bs =>
    .ok (if bs.all (·.toNat < 128) then
      Binary64.read? (String.ofList (bs.map fun b => Char.ofNat b.toNat)) else none)
  | v =>
    match v.whole? with
    | some n =>
      match Binary64.ofInt? n with
      | some x => .ok (some x)
      | none => .error (.overflow "int too large to convert to float")
    | none => .ok none

/-- Two values that are close as numbers. -/
def closeNumbers (got want : Value) : Except Failure Bool := do
  match ← number? got with
  | none => pure false
  | some x =>
    match ← number? want with
    | none => pure false
    | some y => pure (x.isClose y)

def accepts (c : Checker) (got want : Value) : Except Failure Bool :=
  match c with
  | .exactMatch => .ok (sameText got.text want.text)
  | .floatIsclose => closeNumbers got want
  | .unorderedListEqual => .ok (sameWords got.text want.text)

end Checker

/-- The values of an input text: one for each line, where only the last newline ends the last
line. -/
def splitStdin (text : String) : List String :=
  if text = "" then []
  else
    let cs := text.toList
    (Text.splitAt '\n' (if cs.getLast? = some '\n' then cs.dropLast else cs)).map String.ofList

namespace Grading

/-- One grading: the unit, its input, and how its output is judged. -/
structure Request where
  unit : Source
  input : String := ""
  expected : Option String := none
  timeLimit : Option Binary64 := none
  echo : Bool := false
  checker : Option String := some "exact_match"

/-- A verdict from an outcome: the program has to end, and what it shows has to be accepted. -/
def judge (r : Request) (checker : Checker) (o : Outcome) : Except Failure Verdict := do
  let passed ← if o.ok then
      match r.expected with
      | none => pure true
      | some want => checker.accepts (.str o.stdout) (.str want)
    else pure false
  pure { input := r.input, expected := r.expected, actual := o.stdout, passed, status := o.status,
         error := o.error, timeMs := o.timeMs }

/-- The verdict for a program that could not be executed. -/
def unexecuted (r : Request) (e : Failure) : Verdict where
  input := r.input
  expected := r.expected
  status := .runtimeError
  error := some e.message

/-- The time a program may take; none, or one of zero, is the usual one. -/
def timeoutFor (limit : Option Binary64) (usual : Binary64) : Binary64 :=
  match limit with
  | some x => if x.isZero then usual else x
  | none => usual

/-- What a case is executed as. -/
def Request.run (r : Request) (key : String) (usual : Binary64) : Execution.Request where
  source := r.unit
  key := key
  values := splitStdin r.input
  mode := .batch
  timeout := timeoutFor r.timeLimit usual
  echo := r.echo

/-- The key of the session of a case, by the identifier that is drawn for it. -/
def sessionKey (id : String) : String := "batch-" ++ String.ofList (id.toList.take 8)

/-- What comes of a case in the end. -/
def conclusion (r : Request) (checker : Checker) :
    Except Failure Outcome → Except Failure Verdict
  | .ok o => judge r checker o
  | .error e => if e.isSandbox then .ok (unexecuted r e) else .error e

/-- Grades a program on a session of its own, which is taken down afterwards. -/
def one (listener : String → Op Unit) (r : Request) : Op Verdict := do
  let checker ← Op.ofExcept (Checker.named r.checker)
  let key := sessionKey (← drawId)
  let usual ← Op.view (·.setup.batchTimeout)
  let x := Execution.execute listener (fun _ => pure ()) (r.run key usual)
  let result ← Op.ensuring (Op.outcome x) (Registry.reset key)
  Op.ofExcept (conclusion r checker result)

/-- Milliseconds as a limit in seconds; none, or zero, is no limit of its own. -/
def limitOf (ms : Option Int) : Except Failure (Option Binary64) :=
  match ms with
  | none | some 0 => .ok none
  | some n => (secondsOf n).map some

/-! ### Several workers -/

/-- How far a worker has come with a case. -/
inductive Stage where
  | waiting
  /-- It is settled what it is executed as. -/
  | named (x : Execution.Request)
  | seated (x : Execution.Request)
  /-- Its session is held since a time: the record and the handle. -/
  | holding (x : Execution.Request) (started : Int) (r h : Nat)
  /-- Its program is on its way to a process, and how that is going to react. -/
  | running (x : Execution.Request) (started : Int) (r h c : Nat) (a : Scripted)
  /-- It was executed, and its session is to be taken down. -/
  | executed (x : Execution.Request) (result : Except Failure Outcome)
  | finished (result : Except Failure Verdict)

namespace Stage

def isWaiting : Stage → Bool
  | .waiting => true
  | _ => false

def result? : Stage → Option (Except Failure Verdict)
  | .finished result => some result
  | _ => none

def isUnderway (stage : Stage) : Bool := !stage.isWaiting && stage.result?.isNone

def hasVerdict : Stage → Bool
  | .finished (.ok _) => true
  | _ => false

end Stage

def concluded (x : Execution.Request) (started : Int) (used : Except Failure Json) : Op Stage := do
  pure (.executed x (← Op.outcome (Execution.concluded (fun _ => pure ()) x x.key started used)))

/-- A session is let go of when its use for a case has ended. -/
def parted (x : Execution.Request) (started : Int) (r : Nat) (reply : Except Failure Json) :
    Op Stage := do
  concluded x started (← Op.outcome (Registry.letGo x.key r reply))

/-- The session of a case is taken down, whatever came of the case. -/
def finish (q : Request) (x : Execution.Request) (result : Except Failure Outcome) : Op Stage := do
  match ← Op.outcome (Registry.reset x.key) with
  | .ok () => pure (.finished (do conclusion q (← Checker.named q.checker) result))
  | .error e => pure (.finished (.error e))

/-- What a worker does next with a case, before others may come in between: it draws an identifier,
gets the session, begins to hold it, sends the program, takes the answer over, and takes the session
down. -/
def advance (listener : String → Op Unit) (q : Request) : Stage → Op Stage
  | .waiting =>
    match Checker.named q.checker with
    | .error e => pure (.finished (.error e))
    | .ok _ => do
      let key := sessionKey (← drawId)
      let usual ← Op.view (·.setup.batchTimeout)
      pure (.named (q.run key usual))
  | .named x => do
    match ← Op.outcome (Registry.acquire listener (some x.key)) with
    | .ok _ => pure (.seated x)
    | .error e => do
      let result ← Op.outcome (Execution.unseated x e)
      pure (.executed x result)
  | .seated x => do
    let started ← now
    let held ← Op.outcome do
      let r ← Registry.hold x.key
      let info ← record r
      pure (r, info.handle)
    match held with
    | .ok (r, h) => pure (.holding x started r h)
    | .error e => concluded x started (.error e)
  | .holding x started r h => do
    let sent ← Op.outcome do
      let c ← Interpreter.addressee h x.body
      let a ← Process.arrive c "/run" x.body
      pure (c, a)
    match sent with
    | .ok (c, a) => pure (.running x started r h c a)
    | .error e => parted x started r (.error e)
  | .running x started r h c a => do
    let reply ← Op.outcome do
      let ended ← Process.react c "/run" x.body a
      Interpreter.heard h "/run" x.timeout ended
    parted x started r reply
  | .executed x result => finish q x result
  | .finished result => pure (.finished result)

/-- Cases with how far each has come. -/
abbrev Pool := List (Request × Stage)

inductive Turn where
  /-- A worker goes on with a case. -/
  | go (k : Nat)
  /-- The verdicts are collected, as far as there are any. -/
  | collect

namespace Pool

/-- A worker can go on with a case that is under way, and with the first of those that wait when it
has nothing else to do. -/
def canGo (workers : Nat) (pool : Pool) (k : Nat) : Bool :=
  match pool[k]? with
  | none => false
  | some (_, stage) =>
    stage.isUnderway || stage.isWaiting && (pool.take k).all (!·.2.isWaiting) &&
      pool.countP (·.2.isUnderway) < workers

/-- What has come of the cases that are finished; the first failure stands for all. -/
def results (pool : Pool) : Except Failure (List Verdict) :=
  (pool.filterMap (·.2.result?)).mapM id

/-- The first case that has no verdict has failed. -/
def hasFailed (pool : Pool) : Bool :=
  match pool.find? (!·.2.hasVerdict) with
  | some (_, .finished _) => true
  | _ => false

/-- One turn. Cases that wait are given up when a failure is collected. -/
def turn (listener : String → Op Unit) (workers : Nat) (pool : Pool) : Turn → Op Pool
  | .go k =>
    match pool[k]? with
    | none => pure pool
    | some (q, stage) =>
      if pool.canGo workers k then do
        let next ← advance listener q stage
        pure (pool.set k (q, next))
      else pure pool
  | .collect => pure (if pool.hasFailed then pool.filter (!·.2.isWaiting) else pool)

def work (listener : String → Op Unit) (workers : Nat) : List Turn → Pool → Op Pool
  | [], pool => pure pool
  | t :: turns, pool => do
    let pool ← turn listener workers pool t
    work listener workers turns pool

/-- Turns in which a case comes to its end when nothing keeps it from that. -/
def lap (k : Nat) : List Turn := .collect :: List.replicate 6 (.go k)

/-- Turns in which so many cases come to their end, one after the other. -/
def closing (n : Nat) : List Turn := (List.range n).flatMap lap

end Pool

/-- What the cases of a list are graded as. -/
def caseOf (source : Source) (options : GradingOptions) (timeLimit : Option Binary64)
    (c : TestCase) : Request where
  unit := {
    code := source.code
    prepend := if options.prepend = "" then source.prepend else options.prepend
    postpend := if options.postpend = "" then source.postpend else options.postpend }
  input := c.input
  expected := c.expected
  timeLimit := timeLimit
  echo := options.echoInput
  checker := some options.checker

/-- Grades a source on test cases. The verdicts come in the order of the cases, also when several
workers grade them, who take turns in some way first; what is left then is graded in order. -/
def batch (listener : String → Op Unit) (turns : List Turn) (source : Source)
    (cases : List TestCase) (options : GradingOptions) : Op (List Verdict) := do
  let timeLimit ← Op.ofExcept (limitOf options.timeoutMs)
  let _ ← Op.ofExcept (Checker.named (some options.checker))
  let requests := cases.map (caseOf source options timeLimit)
  let workers ← Op.view (·.setup.workers)
  if workers ≤ 1 || cases.length ≤ 1 then requests.mapM (one listener)
  else do
    let pool ← Pool.work listener workers (turns ++ Pool.closing cases.length)
      (requests.map (·, .waiting))
    Op.ofExcept pool.results

/-- Grades a source on test cases, where every worker gets done with a case before another one takes
its turn. -/
def all (listener : String → Op Unit) (source : Source) (cases : List TestCase)
    (options : GradingOptions) : Op (List Verdict) :=
  batch listener [] source cases options

end Grading

end Rerun
