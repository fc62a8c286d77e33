import Rerun.Source
import Rerun.Shape

/-!
What comes of running a program: the outcome of one attempt, the test cases and options of a
grading, and the verdicts.
-/

namespace Rerun

inductive RunStatus where
  | success
  | runtimeError
  | timeout
  | awaitingInput
  deriving DecidableEq, Inhabited

namespace RunStatus

def name : RunStatus → String
  | .success => "SUCCESS"
  | .runtimeError => "RUNTIME_ERROR"
  | .timeout => "TIMEOUT"
  | .awaitingInput => "AWAITING_INPUT"

def all : List RunStatus := [.success, .runtimeError, .timeout, .awaitingInput]

def ofName (s : String) : RunStatus := (all.find? (·.name = s)).getD .success

def shape : Shape := .choice (all.map name)

end RunStatus

/-- The outcome of one attempt, with the whole output of the program from its start. -/
structure Outcome where
  status : RunStatus
  stdout : String := ""
  stderr : String := ""
  /-- The prompt of the read that found no value. -/
  pendingPrompt : Option String := none
  error : Option String := none
  /-- The newest input, as it was given. -/
  echo : Option Json := none
  timeMs : Int := 0
  runId : Option String := none
  backend : String := "local"
  deriving Inhabited

namespace Outcome

def awaitsInput (o : Outcome) : Bool := o.status = .awaitingInput

def ok (o : Outcome) : Bool := o.status = .success

def echoing (o : Outcome) : Option Json → Outcome
  | some j => { o with echo := some j }
  | none => o

def toJson (o : Outcome) : Json := .obj [
  ("status", .str o.status.name), ("stdout", .str o.stdout), ("stderr", .str o.stderr),
  ("pending_prompt", Json.ofString? o.pendingPrompt), ("error", Json.ofString? o.error),
  ("echo", o.echo.getD .null), ("time_ms", .int o.timeMs), ("run_id", Json.ofString? o.runId),
  ("backend", .str o.backend)]

def shape : Shape := .record <|
  .field "status" RunStatus.shape none <| Shape.textFieldOr "stdout" "" <|
  Shape.textFieldOr "stderr" "" <| Shape.optionalText "pending_prompt" <|
  Shape.optionalText "error" <| Shape.optionalText "echo" <|
  .field "time_ms" .whole (some (.int 0)) <| Shape.optionalText "run_id" <|
  Shape.textFieldOr "backend" "local" .done

/-- Reads an outcome from a value that fits its shape. -/
def ofFields (j : Json) : Outcome where
  status := .ofName (j.textOf "status")
  stdout := j.textOf "stdout"
  stderr := j.textOf "stderr"
  pendingPrompt := j.text?Of "pending_prompt"
  error := j.text?Of "error"
  echo := j.field? "echo"
  timeMs := (j.int?Of "time_ms").getD 0
  runId := j.text?Of "run_id"
  backend := j.textOf "backend"

end Outcome

namespace Source

def shape : Shape := .record <|
  Shape.textField "code" <| Shape.textFieldOr "prepend" "" <| Shape.textFieldOr "postpend" "" .done

def ofFields (j : Json) : Source :=
  ⟨j.textOf "code", j.textOf "prepend", j.textOf "postpend"⟩

end Source

structure TestCase where
  input : String := ""
  expected : Option String := none
  deriving DecidableEq, Inhabited

namespace TestCase

def shape : Shape := .record <|
  Shape.textFieldOr "input" "" <| Shape.optionalText "expected_output" .done

def ofFields (j : Json) : TestCase := ⟨j.textOf "input", j.text?Of "expected_output"⟩

def read (j : Json) : Except (List Issue) TestCase := (Shape.fit shape j).map ofFields

end TestCase

structure GradingOptions where
  echoInput : Bool := false
  prepend : String := ""
  postpend : String := ""
  timeoutMs : Option Int := none
  checker : String := "exact_match"
  deriving DecidableEq, Inhabited

namespace GradingOptions

def defaults : Json := .obj [
  ("echo_input", .bool false), ("prepend", .str ""), ("postpend", .str ""),
  ("timeout_ms", .null), ("checker", .str "exact_match")]

def shape : Shape := .record <|
  .field "echo_input" .flag (some (.bool false)) <| Shape.textFieldOr "prepend" "" <|
  Shape.textFieldOr "postpend" "" <| .field "timeout_ms" (.optional .whole) (some .null) <|
  Shape.textFieldOr "checker" "exact_match" .done

def ofFields (j : Json) : GradingOptions where
  echoInput := j.flagOf "echo_input"
  prepend := j.textOf "prepend"
  postpend := j.textOf "postpend"
  timeoutMs := j.int?Of "timeout_ms"
  checker := j.textOf "checker"

def read (j : Json) : Except (List Issue) GradingOptions := (Shape.fit shape j).map ofFields

end GradingOptions

/-- The result of one test case. -/
structure Verdict where
  input : String := ""
  expected : Option String := none
  actual : String := ""
  passed : Bool := false
  status : RunStatus
  error : Option String := none
  timeMs : Int := 0
  deriving DecidableEq, Inhabited

namespace Verdict

def toJson (v : Verdict) : Json := .obj [
  ("input", .str v.input), ("expected_output", Json.ofString? v.expected),
  ("actual_output", .str v.actual), ("passed", .bool v.passed), ("status", .str v.status.name),
  ("error", Json.ofString? v.error), ("time_ms", .int v.timeMs)]

def shape : Shape := .record <|
  Shape.textFieldOr "input" "" <| Shape.optionalText "expected_output" <|
  Shape.textFieldOr "actual_output" "" <| .field "passed" .flag (some (.bool false)) <|
  .field "status" RunStatus.shape none <| Shape.optionalText "error" <|
  .field "time_ms" .whole (some (.int 0)) .done

end Verdict

def summaryJson (vs : List Verdict) : Json := .obj [
  ("passed", .int (vs.countP (·.passed))), ("total", .int vs.length),
  ("results", .arr (vs.map Verdict.toJson))]

end Rerun
