import Rerun.Program.Eval
import Rerun.Program.Reader
import Rerun.Outcome
import Rerun.Value.Encode

/-!
What the interpreter of a session answers. `/run` runs a program from its top among names of its
own; `/load` runs one among names that stay; `/call` calls one of the functions that stayed. A
program that hangs or brings its process down leaves a request without an answer.
-/

namespace Rerun.Serving

open Program

structure RunRequest where
  code : String
  inputs : List String := []
  seed : Option Int := none
  mode : String := "interactive"
  echoInputs : Bool := true

def RunRequest.shape : Shape := .record <|
  Shape.textField "code" <| .field "inputs" (.list .text) (some (.arr [])) <|
  .field "seed" (.optional .whole) (some .null) <| Shape.textFieldOr "mode" "interactive" <|
  .field "echo_inputs" .flag (some (.bool true)) .done

def RunRequest.ofFields (j : Json) : RunRequest where
  code := j.textOf "code"
  inputs := (j.itemsOf "inputs").filterMap Json.str?
  seed := j.int?Of "seed"
  mode := j.textOf "mode"
  echoInputs := j.flagOf "echo_inputs"

structure LoadRequest where
  code : String
  seed : Option Int := none

def LoadRequest.shape : Shape := .record <|
  Shape.textField "code" <| .field "seed" (.optional .whole) (some .null) .done

def LoadRequest.ofFields (j : Json) : LoadRequest := ⟨j.textOf "code", j.int?Of "seed"⟩

structure CallRequest where
  function : String
  args : List Json := []

def CallRequest.shape : Shape := .record <|
  Shape.textField "function" <| .field "args" (.list .any) (some (.arr [])) .done

def CallRequest.ofFields (j : Json) : CallRequest := ⟨j.textOf "function", j.itemsOf "args"⟩

/-- How a computation in a session ends. -/
inductive Ending (α : Type) where
  | finished (a : α)
  | suspended (prompt : String)
  | failed (e : Exn)
  | malformed (line : Nat)
  /-- An exception that the session does not report, or cannot tell of. -/
  | unreported
  | hung
  | crashed

/-- The exceptions that end a program without ending its session: errors, interrupts and exits of
which can be told. -/
def reported (e : Exn) : Bool :=
  (isBelow e.cls "Exception" || e.cls = "KeyboardInterrupt" || e.cls = "SystemExit") &&
    e.told?.isSome

/-- Sorts the ways to stop; `clean` stands for the value of a program that leaves cleanly. -/
def Ending.ofStop {α : Type} (clean : α) : Stop → Ending α
  | .requested prompt => .suspended prompt
  | .hung => .hung
  | .crashed => .crashed
  | .raised e =>
    if e.isCleanExit then .finished clean
    else if reported e then .failed e
    else .unreported

def Ending.of {α : Type} (clean : α) : Except Stop α → Ending α
  | .ok a => .finished a
  | .error s => .ofStop clean s

def errorJson (type : String) (message line : Json) : Json :=
  .obj [("type", .str type), ("message", message), ("lineno", line)]

def errorOf {α : Type} : Ending α → Option Json
  | .failed e => some (errorJson e.cls e.told (.int e.line))
  | .malformed line => some (errorJson "SyntaxError" (.str "unmatched ')'") (.int line))
  | _ => none

/-- A machine that is to run a program. -/
def machine (names : Names) (feed : Feed) (seed : Option Int) : Machine := { names, feed, seed }

def runProgram (code : String) (m : Machine) : Ending Unit × Machine :=
  match Program.read code with
  | .error line => (.malformed line, m)
  | .ok ls =>
    let (r, m) := runLines 1 ls m
    (.of () r, m)

/-- One attempt at a program: how it ended, and the machine it left. -/
def attempt (seed : Option Int) (r : RunRequest) : Ending Unit × Machine :=
  runProgram r.code (machine .initial (.ofMode r.inputs r.mode r.echoInputs) seed)

inductive Answer where
  | reply (body : Json)
  | refused (status : Int)
  | hung
  | crashed

def statusName : Ending Unit → String
  | .finished _ => "ok"
  | .suspended _ => "awaiting_input"
  | _ => "error"

def promptOf : Ending Unit → Json
  | .suspended prompt => .str prompt
  | _ => .null

/-- A reply with a number that is not finite cannot be sent. -/
def Answer.ofReply (body : Json) : Answer :=
  if body.hasNonFinite then .refused 500 else .reply body

/-- The answer to a run. -/
def runAnswer (e : Ending Unit) (m : Machine) : Answer :=
  match e with
  | .hung => .hung
  | .crashed => .crashed
  | .unreported => .refused 500
  | e => .ofReply <| .obj [
      ("status", .str (statusName e)), ("prompt", promptOf e),
      ("error", (errorOf e).getD .null), ("stdout", .str (transcript m.shown)),
      ("stderr", .str m.errors), ("consumed", .int m.feed.taken)]

/-- The answer to a load. -/
def loadAnswer (e : Ending Unit) (m : Machine) : Answer :=
  match e with
  | .hung => .hung
  | .crashed => .crashed
  | .unreported => .refused 500
  | e => .ofReply <| .obj [
      ("status", .str (statusName e)), ("stdout", .str (transcript m.shown)),
      ("stderr", .str m.errors), ("error", (errorOf e).getD .null)]

/-- Runs a program among names that stay. -/
def load (seed : Option Int) (r : LoadRequest) : Ending Unit × Machine :=
  runProgram r.code (machine .initial .closed seed)

/-- Calls a function among the names that stayed; a name that is no function has no ending. -/
def call (names : Names) (seed : Option Int) (r : CallRequest) :
    Option (Ending Value × Machine) :=
  match names.globals.lookup r.function with
  | some f@(.function ..) =>
    let (result, m) := callValue (callFunction maxDepth) f (r.args.map Value.ofJson)
      (machine names .closed seed)
    some (.of .none result, m)
  | _ => none

/-- The answer to a call of a name that is no function. -/
def undefinedAnswer (name : String) : Answer :=
  .ofReply <| .obj [
    ("status", .str "error"), ("stdout", .str ""),
    ("error", errorJson "NameError" (.str ("function '" ++ name ++ "' is not defined")) .null)]

/-- The answer to a call. A value that neither has a JSON form nor a text counts as an error. -/
def callAnswer (e : Ending Value) (m : Machine) : Answer :=
  match e with
  | .hung => .hung
  | .crashed => .crashed
  | .unreported => .refused 500
  | .finished v =>
    if v.isWritable then .ofReply <| .obj [
      ("status", .str "ok"), ("value", v.jsonable), ("stdout", .str (transcript m.shown)),
      ("error", .null)]
    else .ofReply <| .obj [
      ("status", .str "error"), ("stdout", .str (transcript m.shown)),
      ("error", errorJson "ValueError" (.str Text.writeLimitMessage) .null)]
  | e => .ofReply <| .obj [
      ("status", .str "error"), ("stdout", .str (transcript m.shown)),
      ("error", (errorOf e).getD .null)]

end Rerun.Serving
