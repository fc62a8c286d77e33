import Rerun.Arguments
import Rerun.Conversation
import Rerun.Settings

/-!
The command line. `serve` starts the service, `run` runs a script in the terminal and answers its
prompts from the standard input, and `grade` grades a script against test cases. A second entry
starts the server inside a session.
-/

namespace Rerun.CommandLine

/-! ### Invocations -/

inductive Task where
  | serve (host : String) (port : Int)
  | run (script : String)
  | grade (script cases : String) (echo : Bool) (checker : String)
  deriving DecidableEq

structure Invocation where
  envFile : String
  verbose : Bool
  task : Task
  deriving DecidableEq

open Arguments in
def mainGrammar : Grammar where
  parameters := [⟨["--env-file"], .text, false⟩, ⟨["-v", "--verbose"], .flag, false⟩]
  operands := 1
  commands := true

open Arguments in
def serveGrammar : Grammar where
  parameters := [⟨["--host"], .text, false⟩, ⟨["--port"], .whole, false⟩]
  operands := 0

open Arguments in
def runGrammar : Grammar where
  parameters := []
  operands := 1

open Arguments in
def gradeGrammar : Grammar where
  parameters := [⟨["--echo"], .flag, false⟩, ⟨["--checker"], .text, false⟩]
  operands := 2

open Arguments in
def sessionGrammar : Grammar where
  parameters := [⟨["--host"], .text, false⟩, ⟨["--port"], .whole, true⟩,
    ⟨["--workdir"], .text, false⟩]
  operands := 0

/-- Reads arguments of which each one needs a place. -/
def readAll (g : Arguments.Grammar) (args : List String) :
    Except Arguments.Refusal Arguments.Given := do
  let given ← Arguments.read g args
  if given.surplus then .error .wrong else .ok given

def Task.read (command : String) (args : List String) : Except Arguments.Refusal Task := do
  match command with
  | "serve" =>
    let given ← readAll serveGrammar args
    .ok (.serve (given.text "--host" "127.0.0.1") (given.whole "--port" 8000))
  | "run" =>
    let given ← readAll runGrammar args
    .ok (.run (given.operands[0]?.getD ""))
  | "grade" =>
    let given ← readAll gradeGrammar args
    .ok (.grade (given.operands[0]?.getD "") (given.operands[1]?.getD "") (given.flag "--echo")
      (given.text "--checker" "exact_match"))
  | _ => .error .wrong

def Invocation.read (args : List String) : Except Arguments.Refusal Invocation := do
  let given ← Arguments.read mainGrammar args
  let task ← Task.read (given.operands[0]?.getD "") given.rest
  if given.surplus then .error .wrong
  else .ok ⟨given.text "--env-file" "sandbox.env", given.flag "--verbose", task⟩

/-- The files that an invocation reads. -/
def Invocation.files (i : Invocation) : List String :=
  i.envFile :: match i.task with
    | .serve .. => []
    | .run script => [script]
    | .grade script cases _ _ => [script, cases]

def refusalCode : Arguments.Refusal → Int
  | .help => 0
  | .wrong => 2

/-- A path as it is written, without what does not matter in it. -/
def pathText (s : String) : String :=
  let names := ((Text.splitAt '/' s.toList).map String.ofList).filter fun n => n ≠ "" && n ≠ "."
  let start := if s.toList.head? = some '/' then "/" else ""
  let text := start ++ String.intercalate "/" names
  if text = "" then "." else text

/-! ### The terminal -/

structure Server where
  host : String
  port : Int
  logLevel : String
  deriving DecidableEq

/-- What the command line has to do with. -/
structure Surroundings where
  environment : List (String × String) := []
  files : List (Path × String) := []
  input : String := ""

/-- What a command has shown, and the sandbox that it uses. -/
structure Terminal where
  sandbox : Sandbox
  out : String := ""
  err : String := ""
  servers : List Server := []

/-- Something done at a terminal, which keeps what was shown also when it fails. -/
abbrev Session (α : Type) := ExceptT Failure (StateM Terminal) α

namespace Session

def print (s : String) : Session Unit := modify fun t => { t with out := t.out ++ s }

def printLine (s : String) : Session Unit := print (s ++ "\n")

def complain (s : String) : Session Unit := modify fun t => { t with err := t.err ++ s ++ "\n" }

def listen (s : Server) : Session Unit := modify fun t => { t with servers := t.servers ++ [s] }

def use {α : Type} (x : Op α) : Session α := fun t =>
  let (r, s) := x (Sandbox.interrupts (t.sandbox.written + 1)) t.sandbox
  (r, { t with sandbox := s })

/-- Sets the sandbox up, with interpreters that are reached over the network; settings that it
cannot have are a failure. -/
def setUp (settings : Settings) : Session Unit := do
  let setup ← ExceptT.mk (pure settings.setup)
  modify fun t => { t with sandbox := { t.sandbox with setup := { setup with networked := true } } }

/-- Closes the sandbox when something is over, however it ended. -/
def closing {α : Type} (x : Session α) : Session α := fun t =>
  let (r, t) := x t
  match use Contexts.closeAll t with
  | (.ok (), t) => (r, t)
  | (.error e, t) => (.error e, t)

end Session

open Session

/-! ### Files -/

def isFolder (s : Surroundings) (p : Path) : Bool :=
  p.parts.isEmpty || s.files.any fun f => f.1 ≠ p && f.1.isWithin p

/-- Whether a file stands where a path needs a folder. -/
def isBlocked (s : Surroundings) (p : Path) : Bool :=
  s.files.any fun f => f.1 ≠ p && p.isWithin f.1

def readFile (s : Surroundings) (name : String) : Session String :=
  let p := Path.work.resolve name
  match s.files.lookup p with
  | some text => pure (Text.foldNewlines text)
  | none =>
    throw (.other (if isFolder s p then "IsADirectoryError"
      else if isBlocked s p then "NotADirectoryError" else "FileNotFoundError"))

/-! ### Settings -/

/-- A binding that no environment can hold. -/
def unfitBinding? (b : String × String) : Option Failure :=
  if b.1.toList.contains '\x00' || b.2.toList.contains '\x00' then
    some (.badValue "embedded null byte")
  else if b.1.toList.contains '=' then some (.badValue "illegal environment variable name")
  else none

/-- The environment with the bindings of a file added to it, where it has none of its own. -/
def extended (env : List (String × String)) (text : String) :
    Except Failure (List (String × String)) :=
  let added := (EnvFile.values .environment env text).filter fun b => (env.lookup b.1).isNone
  match added.findSome? unfitBinding? with
  | some f => .error f
  | none => .ok (env ++ added)

/-- Reads the settings, and tells where they come from. -/
def readSettings (s : Surroundings) (envFile : String) : Session Settings := do
  let file := s.files.lookup (Path.work.resolve envFile)
  let env ← ExceptT.mk (pure (extended s.environment (file.getD "")))
  if (EnvFile.read .environment s.environment (file.getD "")).isEmpty then
    printLine "⚠️  No .env file found, using defaults"
  else printLine ("✅ Loaded configuration from " ++ pathText envFile)
  let settings ← ExceptT.mk (pure (Settings.ofEnvironment env file))
  printLine ("✅ Configuration loaded: fallback=" ++ settings.fallback.name ++ ", sessions in " ++
    settings.sessionRoot.text)
  pure settings

/-! ### Tasks -/

def serve (host : String) (port : Int) : Session Int := do
  printLine ("🚀 Serving replay-sandbox API on http://" ++ host ++ ":" ++ Text.decimal port)
  listen ⟨host, port, "info"⟩
  pure 0

def inputLines (input : String) : List String :=
  let pieces := (Text.splitAt '\n' input.toList).map String.ofList
  if pieces.getLast? = some "" then pieces.dropLast else pieces

/-- What an attempt has to show beyond what is already shown. -/
def news (shown stdout : String) : String :=
  if shown.toList.isPrefixOf stdout.toList then
    String.ofList (stdout.toList.drop shown.toList.length)
  else stdout

/-- Shows attempts and answers each prompt with a line, until the program asks no more; nothing when
the lines have come to an end. -/
def converse (source : Source) (values : List String) (shown : String) (o : Outcome) :
    List String → Session (Option Outcome)
  | [] => do
    print (news shown o.stdout)
    if o.awaitsInput then do
      printLine "\n⚠️  Input closed, abandoning run"
      pure none
    else pure (some o)
  | value :: lines => do
    print (news shown o.stdout)
    if o.awaitsInput then do
      let next ← use (Contexts.submit "default" source (values.map .str) (some (.str value)))
      -- The program shows the value itself.
      converse source (values ++ [value]) (o.stdout ++ value ++ "\n") next lines
    else pure (some o)

/-- Runs a script; each prompt is answered from the standard input. -/
def run (s : Surroundings) (script : String) : Session Int := do
  let code ← readFile s script
  let source : Source := { code }
  let ended ← closing do
    let first ← use (Contexts.submit "default" source [] none)
    converse source [] "" first (inputLines s.input)
  match ended with
  | none => pure 1
  | some o => do
    match o.error with
    | some error => if error = "" then pure () else complain error
    | none => pure ()
    pure (if o.ok then 0 else 1)

/-- A test case from a file of them. -/
def testCase : Json → Session TestCase
  | .obj fields =>
    match TestCase.read (.obj fields) with
    | .ok c => pure c
    | .error issues => throw (.invalid issues)
  | _ => throw (.other "TypeError")

/-- The test cases of a file. An object or a text stands for its names or characters, which are no
test cases. -/
def testCases (j : Json) : Session (List TestCase) :=
  match j with
  | .arr js => js.mapM testCase
  | .obj [] | .str "" => pure []
  | _ => throw (.other "TypeError")

def verdictLine (number : Nat) (v : Verdict) : String :=
  let mark := if v.passed then "✅" else "❌"
  let detail := match v.error with
    | some error => if error = "" then "" else " - " ++ error
    | none => ""
  mark ++ " case " ++ Text.decimal number ++ ": " ++ v.status.name ++ " (" ++
    Text.decimal v.timeMs ++ " ms)" ++ detail

def grade (s : Surroundings) (script cases : String) (echo : Bool) (checker : String) :
    Session Int := do
  let code ← readFile s script
  let text ← readFile s cases
  let raw ← match Json.read text with
    | .ok j => pure j
    | .error _ => throw (.other "JSONDecodeError")
  let cases ← testCases raw
  let options : GradingOptions := { echoInput := echo, checker }
  let verdicts ← closing (use (Contexts.grade code cases options))
  (verdicts.zipIdx 1).forM fun v => printLine (verdictLine v.2 v.1)
  let passed := verdicts.countP (·.passed)
  printLine ("🎯 " ++ Text.decimal passed ++ "/" ++ Text.decimal verdicts.length ++ " passed")
  pure (if passed = verdicts.length then 0 else 1)

def perform (s : Surroundings) (settings : Settings) (task : Task) : Session Int := do
  setUp settings
  match task with
  | .serve host port => serve host port
  | .run script => run s script
  | .grade script cases echo checker => grade s script cases echo checker

/-- Reports what ends a task early. -/
def reporting (x : Session Int) : Session Int :=
  tryCatch x fun e =>
    if e.isSandbox then do
      printLine ("❌ " ++ e.kind.name ++ ": " ++ e.message)
      pure 1
    else if e.kind = .interrupted then do
      printLine "\n👋 Interrupted"
      pure 130
    else throw e

/-- Carries an invocation out. -/
def carryOut (s : Surroundings) (i : Invocation) : Session Int := do
  let settings ← tryCatch (some <$> readSettings s i.envFile) fun e =>
    if e.isBadValue then do
      printLine ("❌ Invalid configuration: " ++ e.message)
      pure none
    else throw e
  match settings with
  | none => pure 2
  | some settings => reporting (perform s settings i.task)

inductive Ending where
  | exit (code : Int)
  /-- The server inside a session gives no code. -/
  | done
  /-- Nothing was done: help was asked for, or the arguments are wrong. -/
  | refused (code : Int)
  | failed (f : Failure)

def endingOf : Except Failure Int → Ending
  | .ok code => .exit code
  | .error f => .failed f

def start (args : List String) (s : Surroundings) (sandbox : Sandbox) : Ending × Terminal :=
  match Invocation.read args with
  | .error refusal => (.refused (refusalCode refusal), { sandbox })
  | .ok i =>
    let (r, t) := (carryOut s i).run { sandbox }
    (endingOf r, t)

/-- The server inside a session: its working folder has to be one. -/
def serveSession (s : Surroundings) (given : Arguments.Given) : Session Unit := do
  let p := Path.work.resolve (given.text "--workdir" ".")
  if (s.files.lookup p).isSome then throw (.other "FileExistsError")
  else if isBlocked s p then throw (.other "NotADirectoryError")
  else listen ⟨given.text "--host" "127.0.0.1", given.whole "--port" 0, "warning"⟩

/-- The entry for the server inside a session. -/
def startSession (args : List String) (s : Surroundings) (sandbox : Sandbox) : Ending × Terminal :=
  match readAll sessionGrammar args with
  | .error refusal => (.refused (refusalCode refusal), { sandbox })
  | .ok given =>
    match (serveSession s given).run { sandbox } with
    | (.ok (), t) => (.done, t)
    | (.error f, t) => (.failed f, t)

end Rerun.CommandLine
