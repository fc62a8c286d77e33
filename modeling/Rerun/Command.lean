import Rerun.Outcome
import Rerun.Folder

/-!
What clients ask of the sandbox. Commands are data, so that a request can carry the commands that
other clients give while it is being answered.
-/

namespace Rerun

/-- Whether an execution suspends at a read that finds no value, or ends there. -/
inductive RunMode where
  | interactive
  | batch
  deriving DecidableEq, Inhabited

def RunMode.name : RunMode → String
  | .interactive => "interactive"
  | .batch => "batch"

/-- When an event that cancels an execution becomes set, if there is an event at all. -/
inductive CancelAt where
  | noEvent
  | never
  | at (ms : Int)
  deriving DecidableEq, Inhabited

/-- What is asked of a seed table. -/
inductive SeedRequest where
  | draw
  | seed
  | apply
  | reset
  deriving DecidableEq

/-- How a hold on a session is given up. -/
inductive Departure where
  | normal
  /-- The interpreter was lost. -/
  | lost
  /-- Any other failure. -/
  | failed
  deriving DecidableEq

/-- What is asked of an interpreter handle. -/
inductive HandleRequest where
  | start
  | baseUrl
  | probe
  | execute (request : Json) (timeout : Binary64)
  | load (code : String) (timeout : Binary64) (seed : Json)
  | call (function : String) (args : List Json) (timeout : Binary64)
  | readShown
  | reset
  /-- Where a process finds its modules, with what it would inherit. -/
  | searchPath (inherited : Option String)

/-- The body of a message: JSON, or text that may be malformed. -/
inductive Body where
  | absent
  | json (j : Json)
  | text (s : String)
  deriving Inhabited

/-- What the service answers with. -/
inductive ReplyBody where
  | json (j : Json)
  /-- The request does not have the shape that its handler needs. -/
  | issues (all : List Issue)
  | text (s : String)
  deriving Inhabited

structure Reply where
  status : Nat
  body : ReplyBody
  deriving Inhabited

inductive Command where
  /-- A command that is given values of a wrong shape. -/
  | unfit (issues : List Issue)
  | advance (ms : Int)
  | clock
  | die (child : Nat)
  | children
  | posts (child : Nat)
  | remoteRequests
  | childSettings
  | submit (context : String) (source : Source) (prior : List Json) (newest : Option Json)
  | resetRun (context : String)
  | getRun (context : String)
  | batch (source : String) (cases : List Json) (options : Json)
  | gradeOne (unit : Source) (stdin : String) (expected : Option String)
      (timeLimit : Option Binary64) (echo : Bool) (checker : Option String)
  | challengeLoad (id : String) (source : Source)
  | challengeInvoke (id function : String) (args : List Json)
  | challengeInfo (id : String)
  | challengeTeardown (id : String)
  | challengeClose (id : String)
  | close
  | execute (source : Source) (key : String) (inputs : List String) (seed : Option Int)
      (mode : RunMode) (timeout : Binary64) (echo : Bool) (runId : Option String)
      (cancel : CancelAt)
  | runNew (name : String) (source : Source) (key : String) (timeout : Binary64)
      (inputs : List String) (runId : Option String)
  | runStart (name : String) (echo : Option Json)
  | runResume (name : String) (value : Json)
  | runCancel (name : String)
  | runInfo (name : String)
  | seedTable (request : SeedRequest) (runId : String)
  | sessions
  | acquire (key : Option String)
  | sessionState (key : String)
  | sessionInfo (key : String)
  | reset (key : String)
  | resetAll
  | hold (key name : String)
  | release (name : String) (how : Departure)
  | record (key : String) (entry : Json)
  | swept
  | readJournal (folder : String)
  | readMetadata (folder : String)
  | writeMetadata (folder text : String)
  | handleNew (name : String) (startupTimeout : Binary64)
  | handle (name : String) (request : HandleRequest)
  | remoteSubmit (source stdin : String) (expected : Option String)
  | remotePoll (token : String)
  | remoteExecute (source stdin : String) (expected : Option String) (maxWait : Binary64)
      (cancel : CancelAt)
  | http (method path : String) (body : Body)
  | lifespan (own : Bool)

/-- What clients see of a command: what it gives or why it failed, and what the commands that came
in between gave. -/
inductive Response where
  | value (j : Json)
  | reply (r : Reply)
  | failure (f : Failure)
  | interleaved (result : Response) (during : List Response)
  deriving Inhabited

end Rerun
