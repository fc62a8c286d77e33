import Rerun.Registry
import Rerun.Remote
import Rerun.Report

/-!
One execution of a source unit on one session. Whatever the program does is an outcome: it may end,
raise, ask for input, hang or bring its interpreter down. Only when no interpreter can be started at
all is the program sent to the remote judge, if there is one.
-/

namespace Rerun.Execution

open Sandbox

/-- What is to be executed and how. -/
structure Request where
  source : Source
  key : String
  values : List String
  seed : Option Int := none
  mode : RunMode := .interactive
  timeout : Binary64
  echo : Bool := true
  runId : Option String := none
  cancel : Cancel := .noEvent

def Request.body (r : Request) : Json := .obj [
  ("code", .str r.source.text), ("inputs", .arr (r.values.map .str)),
  ("seed", Json.ofOption .int r.seed), ("mode", .str r.mode.name), ("echo_inputs", .bool r.echo)]

/-- A value as it stands in a text. -/
def asText (j : Json) : String := (Value.ofJson j).text

/-- The line number of an error, which never falls below one. -/
def lineText (line : Json) (prependLines : Nat) : Except Failure String :=
  match line with
  | .int n => .ok (Text.decimal (codeLine n prependLines))
  | .bool b => .ok (Text.decimal (codeLine (if b then 1 else 0) prependLines))
  | .float x =>
    let y := x.sub (.ofInt prependLines)
    .ok (if (Binary64.ofInt 1).lt y then y.text else "1")
  | _ => .error (.other "TypeError")

/-- One line for an error that an interpreter describes, which need not be a text when it has
neither a message nor a line. -/
def describe (error : List (String × Json)) (prependLines : Nat) : Except Failure Json := do
  let type := (error.lookup "type").getD (.str "Error")
  let message := (error.lookup "message").getD (.str "")
  let head := if message.isFalsy then type else .str (asText type ++ ": " ++ asText message)
  match (error.lookup "lineno").getD .null with
  | .null => pure head
  | line => do
    let n ← lineText line prependLines
    pure (.str ("Line " ++ n ++ ": " ++ asText head))

/-- A field that has to be a text. -/
def textIssue (name : String) (j : Json) : List Issue :=
  match j with
  | .str _ => []
  | _ => [⟨.notText, [name]⟩]

/-- An outcome, if the parts of it that come from elsewhere are texts. -/
def checked (fields : List (String × Json)) (o : Outcome) : Except Failure Outcome :=
  match fields.flatMap fun f => textIssue f.1 f.2 with
  | [] => .ok o
  | issues => .error (.invalid issues)

/-- A field that may be absent. -/
def stated (name : String) (j : Json) : List (String × Json) :=
  match j with
  | .null => []
  | j => [(name, j)]

/-- The error of a program that asked for input when nobody could answer. -/
def endOfInput : List (String × Json) :=
  [("type", .str "EOFError"), ("message", .str Feed.endMessage), ("lineno", .null)]

/-- The outcome that a reply describes. -/
def outcomeOf (r : Request) (reply : List (String × Json)) (timeMs : Int) :
    Except Failure Outcome := do
  let stdout := (reply.lookup "stdout").getD (.str "")
  let stderr := (reply.lookup "stderr").getD (.str "")
  let status := (reply.lookup "status").getD .null
  let text (j : Json) : String := (j.str?).getD ""
  if status.str? = some "ok" then
    checked [("stdout", stdout), ("stderr", stderr)]
      { status := .success, stdout := text stdout, stderr := text stderr, timeMs, runId := r.runId }
  else if status.str? = some "awaiting_input" && r.mode = .interactive then
    let given := (reply.lookup "prompt").getD .null
    let prompt := if given.isFalsy then .str "" else given
    checked [("stdout", stdout), ("stderr", stderr), ("pending_prompt", prompt)]
      { status := .awaitingInput, stdout := text stdout, stderr := text stderr,
        pendingPrompt := some (text prompt), timeMs, runId := r.runId }
  else
    let given := (reply.lookup "error").getD .null
    match if given.isFalsy then .obj endOfInput else given with
    | .obj error => do
      let message ← describe error r.source.prependLines
      checked (("stdout", stdout) :: stated "error" message)
        { status := .runtimeError, stdout := text stdout,
          stderr := asText stderr ++ asText message ++ "\n", error := message.str?, timeMs,
          runId := r.runId }
    | _ => .error (.other "AttributeError")

/-- The count of values that a reply says were read. -/
def consumedOf (reply : List (String × Json)) : Except Failure Int :=
  match (reply.lookup "consumed").getD (.int 0) with
  | .int n => .ok n
  | .bool b => .ok (if b then 1 else 0)
  | _ => .error (.other "TypeError")

/-- Milliseconds that the judge says a program took, when it says so in a readable way. -/
def judgedMs (time : Option String) (elapsed : Int) : Except Failure Int :=
  match time.bind Binary64.read? with
  | some .nan | none => .ok elapsed
  | some x =>
    let ms := x.mul (.ofInt 1000)
    if ms.isFinite then .ok ms.truncate
    else .error (.overflow "cannot convert float infinity to integer")

/-- What the judge wrote to the error output, or what its compiler did. -/
def judgedErrors (response : RemoteResponse) : String :=
  match response.stderr with
  | some s => if s = "" then response.compileOutput.getD "" else s
  | none => response.compileOutput.getD ""

/-- The one-line error for a final status. -/
def judgedError (r : Request) (response : RemoteResponse) : Option String :=
  if RemoteStatus.runStatus response.status.id = .success then none
  else
    match Traceback.reduce (judgedErrors response) r.source.prependLines with
    | "" => some (RemoteStatus.describe response.status.id).2
    | line => some line

/-- Executes a program at the remote judge. -/
def executeRemote (remote : RemoteClient) (maxWait : Binary64) (r : Request) (started : Int) :
    Op Outcome := do
  match ← remote.execute r.source.text (Text.joinLines r.values) none maxWait r.cancel with
  | none => do
    let timeMs ← elapsedMs started
    pure { status := .runtimeError, error := some "Remote execution cancelled", timeMs,
           runId := r.runId, backend := "remote" }
  | some response => do
    let elapsed ← elapsedMs started
    let timeMs ← Op.ofExcept (judgedMs response.time elapsed)
    pure { status := RemoteStatus.runStatus response.status.id, stdout := response.stdout.getD "",
           stderr := judgedErrors response, error := judgedError r response, timeMs,
           runId := r.runId, backend := "remote" }

/-- What an execution that lost its interpreter comes to. -/
def lostOutcome (r : Request) (e : Failure) (timeMs : Int) : Outcome :=
  match e.kind with
  | .timedOut =>
    { status := .timeout, stdout := e.partialOutput, timeMs, runId := r.runId,
      error := some ("Execution timed out after " ++ r.timeout.brief ++ " seconds") }
  | _ =>
    { status := .runtimeError, stdout := e.partialOutput, timeMs, runId := r.runId,
      error := some ("Interpreter crashed: " ++ e.message) }

/-- Takes the reply of an interpreter over; `consumed` is told how many values were read. -/
def settle (consumed : Int → Op Unit) (r : Request) (key : String) (started : Int) (reply : Json) :
    Op Outcome := do
  match reply with
  | .obj reply => do
    let n ← Op.ofExcept (consumedOf reply)
    consumed n
    let timeMs ← elapsedMs started
    let outcome ← Op.ofExcept (outcomeOf r reply timeMs)
    Registry.note key <| .obj [
      ("run_id", Json.ofString? r.runId), ("mode", .str r.mode.name),
      ("inputs", .int r.values.length), ("status", .str outcome.status.name),
      ("time_ms", .int outcome.timeMs)]
    pure outcome
  | _ => Op.fail (.other "AttributeError")

/-- What the use of a session comes to, be it a reply or a loss. -/
def concluded (consumed : Int → Op Unit) (r : Request) (key : String) (started : Int) :
    Except Failure Json → Op Outcome
  | .ok reply => settle consumed r key started reply
  | .error e =>
    if e.losesInterpreter then do
      let timeMs ← elapsedMs started
      pure (lostOutcome r e timeMs)
    else Op.fail e

/-- Executes on the session of a key, which is started when there is none. -/
def executeLocal (consumed : Int → Op Unit) (r : Request) (key : String) : Op Outcome := do
  -- Starting an interpreter is not part of the time that the program takes.
  let started ← now
  concluded consumed r key started
    (← Op.outcome (Registry.holding key fun h => Interpreter.execute h r.body r.timeout))

/-- What becomes of an execution that gets no session. -/
def unseated (r : Request) (e : Failure) : Op Outcome := do
  match ← Op.view (·.setup.remote) with
  | some remote =>
    if e.kind = .initialization then do
      let started ← now
      let maxWait ← Op.view (·.setup.remoteMaxWait)
      executeRemote remote maxWait r started
    else Op.fail e
  | none => Op.fail e

def execute (listener : String → Op Unit) (consumed : Int → Op Unit) (r : Request) :
    Op Outcome := do
  match ← Op.outcome (Registry.acquire listener (some r.key)) with
  | .ok key => executeLocal consumed r key
  | .error e => unseated r e

end Rerun.Execution
