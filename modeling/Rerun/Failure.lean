import Rerun.Binary64.Text

/-!
Why an operation fails. A failure is given by its cause; `kind` sorts the causes as callers tell
them apart, and `message` words them. `other` is a fault of a caller or of a foreign answer that is
not worded here.
-/

namespace Rerun

/-- The kinds of failures that callers tell apart. -/
inductive FailureKind where
  | initialization
  | sessionBusy
  | unknownSession
  | notAwaitingInput
  | challenge
  | remote
  | timedOut
  | crashed
  /-- Any other failure of the sandbox. -/
  | sandbox
  | badValue
  | overflow
  | invalid
  | interrupted
  | other (name : String)
  deriving DecidableEq

/-- What is wrong with a value that does not have the shape asked for. -/
inductive ShapeFault where
  | missing
  | notText
  | notWhole
  | wholeFromFraction
  | wholeText
  | wholeSize
  | notFinite
  | notNumber
  | numberText
  | notFlag
  | flagText
  | notList
  | notRecord
  /-- Not a record, where a record may be given by anything that has its fields. -/
  | notFields
  | notChoice
  /-- Text that is no JSON. -/
  | malformed
  deriving DecidableEq

/-- A fault and where in the value it is. -/
structure Issue where
  fault : ShapeFault
  place : List String
  deriving DecidableEq

/-- The name by which clients are told of a fault. -/
def ShapeFault.name : ShapeFault → String
  | .missing => "missing"
  | .notText => "string_type"
  | .notWhole => "int_type"
  | .wholeFromFraction => "int_from_float"
  | .wholeText => "int_parsing"
  | .wholeSize => "int_parsing_size"
  | .notFinite => "finite_number"
  | .notNumber => "float_type"
  | .numberText => "float_parsing"
  | .notFlag => "bool_type"
  | .flagText => "bool_parsing"
  | .notList => "list_type"
  | .notRecord => "model_type"
  | .notFields => "model_attributes_type"
  | .notChoice => "enum"
  | .malformed => "json_invalid"

/-- The name by which clients are told of a kind of failure. -/
def FailureKind.name : FailureKind → String
  | .initialization => "InitializationFailure"
  | .sessionBusy => "SessionBusyError"
  | .unknownSession => "UnknownSessionError"
  | .notAwaitingInput => "NotAwaitingInputError"
  | .challenge => "ChallengeError"
  | .remote => "RemoteExecutionError"
  | .timedOut => "InterpreterTimeout"
  | .crashed => "InterpreterCrashed"
  | .sandbox => "SandboxError"
  | .badValue => "ValueError"
  | .overflow => "OverflowError"
  | .invalid => "ValidationError"
  | .interrupted => "KeyboardInterrupt"
  | .other name => name

inductive Failure where
  | spawnFailed (reason : String)
  | exitedEarly (log : String)
  | startTimeout (seconds : Binary64)
  | notInitialized
  /-- No interpreter could be started for a session, with the reason of the last attempt. -/
  | startFailed (key reason : String)
  | sessionBusy (key : String)
  | contextInFlight (context : String)
  | attemptInFlight (run : String)
  | resumeInFlight (run : String)
  | unknownSession (key : String)
  | notAwaiting (run : String)
  | notRunning
  /-- A request took longer than it may; with what the program had shown. -/
  | exceeded (seconds : Binary64) (partialOutput : String)
  | answeredStatus (status : Int) (path : String)
  | stoppedResponding (reason partialOutput : String)
  | challengeInactive
  | challengeLoad (reason : String)
  | challengeCall (function reason : String)
  | challengeExpired (function : String)
  | remoteStatus (status : Int) (method path : String)
  | remoteUnreachable (base reason : String)
  | remoteNotJson (method path : String)
  | remoteNoToken
  | remotePayload (token : String)
  | badValue (text : String)
  | unreadableJson (text : String)
  | overflow (text : String)
  | invalid (issues : List Issue)
  | interrupted
  | other (name : String)

namespace Failure

def kind : Failure → FailureKind
  | .spawnFailed _ | .exitedEarly _ | .startTimeout _ | .notInitialized | .startFailed .. =>
    .initialization
  | .sessionBusy _ | .contextInFlight _ | .attemptInFlight _ | .resumeInFlight _ => .sessionBusy
  | .unknownSession _ => .unknownSession
  | .notAwaiting _ => .notAwaitingInput
  | .exceeded .. => .timedOut
  | .notRunning | .answeredStatus .. | .stoppedResponding .. => .crashed
  | .challengeInactive | .challengeLoad _ | .challengeCall .. | .challengeExpired _ => .challenge
  | .remoteStatus .. | .remoteUnreachable .. | .remoteNotJson .. | .remoteNoToken
  | .remotePayload _ => .remote
  | .badValue _ => .badValue
  | .unreadableJson _ => .other "JSONDecodeError"
  | .overflow _ => .overflow
  | .invalid _ => .invalid
  | .interrupted => .interrupted
  | .other name => .other name

/-- Drops the blanks at the end of a log. -/
def exitMessage (log : String) : String :=
  Text.stripEnd ("Interpreter process exited during startup.\n" ++ log)

def message : Failure → String
  | .spawnFailed reason => "Could not spawn interpreter process: " ++ reason
  | .exitedEarly log => exitMessage log
  | .startTimeout seconds => "Interpreter did not become healthy within " ++ seconds.brief ++ "s"
  | .notInitialized => "Interpreter not initialized. Call initialize() first."
  | .startFailed key reason => "Could not start interpreter for session " ++ key ++ ": " ++ reason
  | .sessionBusy key => "Session " ++ key ++ " is busy"
  | .contextInFlight context => "Context " ++ context ++ " already has an attempt in flight"
  | .attemptInFlight run => "Run " ++ run ++ " already has an attempt in flight"
  | .resumeInFlight run => "Run " ++ run ++ " already has a resume in flight"
  | .unknownSession key => "Unknown session: " ++ key
  | .notAwaiting run => "Run " ++ run ++ " is not waiting for input"
  | .notRunning => "Interpreter is not running"
  | .exceeded seconds _ => "Execution exceeded " ++ seconds.brief ++ "s"
  | .answeredStatus status path =>
    "Interpreter answered " ++ Text.decimal status ++ " on " ++ path
  | .stoppedResponding reason _ => "Interpreter stopped responding: " ++ reason
  | .challengeInactive => "Challenge session not initialized"
  | .challengeLoad reason => "Failed to initialize challenge session: " ++ reason
  | .challengeCall function reason => "Failed to execute " ++ function ++ ": " ++ reason
  | .challengeExpired function =>
    "Challenge session expired; initialize it again to call " ++ function
  | .remoteStatus status method path =>
    "Judge0 answered HTTP " ++ Text.decimal status ++ " on " ++ method ++ " " ++ path
  | .remoteUnreachable base reason => "Failed to reach Judge0 at " ++ base ++ ": " ++ reason
  | .remoteNotJson method path =>
    "Judge0 returned a non-JSON body on " ++ method ++ " " ++ path
  | .remoteNoToken => "Judge0 did not return a submission token"
  | .remotePayload token => "Unexpected Judge0 payload for " ++ token
  | .badValue text | .unreadableJson text | .overflow text => text
  | .invalid _ | .interrupted | .other _ => ""

/-- What the program had shown when its interpreter was lost. -/
def partialOutput : Failure → String
  | .exceeded _ text | .stoppedResponding _ text => text
  | _ => ""

/-- Whether the failure means that the interpreter of a session is lost. -/
def losesInterpreter (f : Failure) : Bool :=
  match f.kind with
  | .timedOut | .crashed => true
  | _ => false

/-- Whether the failure is one that the sandbox itself reports. -/
def isSandbox (f : Failure) : Bool :=
  match f.kind with
  | .badValue | .overflow | .invalid | .interrupted | .other _ => false
  | _ => true

/-- Whether the failure is that of a value which was refused. -/
def isBadValue (f : Failure) : Bool :=
  match f with
  | .badValue _ | .unreadableJson _ | .invalid _ => true
  | _ => false

end Failure

/-- Milliseconds in seconds; they may be too many for a floating-point number. -/
def secondsOf (ms : Int) : Except Failure Binary64 :=
  match Binary64.ofInt? ms with
  | some _ => .ok (.ofMillis ms)
  | none => .error (.overflow "int too large to convert to float")

/-- The status with which a failure of the sandbox is answered. -/
def FailureKind.httpStatus : FailureKind → Nat
  | .sessionBusy | .notAwaitingInput => 409
  | .unknownSession => 404
  | .challenge => 400
  | .initialization => 503
  | .remote => 502
  | _ => 500

end Rerun
