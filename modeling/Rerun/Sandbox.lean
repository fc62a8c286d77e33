import Rerun.Command
import Rerun.InputQueue
import Rerun.Program.Machine
import Rerun.Text.Quoted

/-!
The state of the sandbox and of what surrounds it: the clock, the interpreter processes, the
folders, the remote judge, and the tables of sessions, runs and challenges. A session key leads to a
record, and a record keeps its identity when its key is given to another one.

How processes and the judge behave is part of the state: each of their answers is written down
before it is asked for, with the commands that other clients give while it is on its way.
-/

namespace Rerun

/-- A fault of a connection. -/
inductive LinkFault where
  | timeout (message : String)
  | transport (message : String)
  /-- Another one, by its name: an answer that cannot be used, or a failure on the way. -/
  | protocol (name message : String)
  deriving Inhabited

def LinkFault.message : LinkFault → String
  | .timeout m | .transport m | .protocol _ m => m

/-- How a request ends. -/
inductive Ended where
  | interrupt
  | fault (f : LinkFault)
  | answer (status : Int) (body : Body)
  deriving Inhabited

/-- What happens when a request comes: time passes, other clients give commands, the program shows
something, and the request ends. -/
structure Scripted where
  took : Int := 0
  during : List Command := []
  shown : Option Content := none
  /-- How the request ends; nothing when the interpreter itself answers. -/
  ended : Option Ended := none
  deriving Inhabited

/-- An answer to the question whether an interpreter is up. -/
inductive Health where
  | status (n : Int)
  | fault (f : LinkFault)
  deriving Inhabited

/-- How an interpreter process is going to behave. -/
structure ChildScript where
  /-- Why it cannot be started. -/
  spawnFailure : Option String := none
  /-- What it prints when it starts. -/
  log : Option Content := none
  /-- It is found dead when it was looked at more often than this. -/
  exitAfter : Option Nat := none
  /-- It survives being killed. -/
  stubborn : Bool := false
  health : List Health := []
  replies : List Scripted := []
  deriving Inhabited

/-- An interpreter process. -/
structure Child where
  script : ChildScript
  folder : Path
  alive : Bool
  /-- How often it was looked at. -/
  polls : Nat := 0
  /-- The requests it got. -/
  posts : List (String × Json) := []
  /-- The names of the program that was loaded. -/
  names : Program.Names := .initial

/-- A handle on an interpreter: its folder, and the process behind it, if one was started. -/
structure Handle where
  folder : Path
  startupTimeout : Binary64
  child : Option Nat := none
  port : Option Nat := none

inductive SessionState where
  | uninitialized
  | ready
  | busy
  | corrupted
  deriving DecidableEq, Inhabited

def SessionState.name : SessionState → String
  | .uninitialized => "UNINITIALIZED"
  | .ready => "READY"
  | .busy => "BUSY"
  | .corrupted => "CORRUPTED"

/-- A session: its interpreter, its folder, and how it is used. -/
structure Record where
  handle : Nat
  folder : Path
  state : SessionState
  /-- When it was last used, in milliseconds. -/
  lastUsed : Int
  executions : Nat := 0
  locked : Bool := false

/-- Which of two tables of seeds. -/
inductive SeedOwner where
  | engine
  | other
  deriving DecidableEq

/-- A logical run of a program. -/
structure RunInfo where
  source : Source
  key : String
  timeout : Binary64
  queue : InputQueue
  runId : String
  owner : SeedOwner
  cancelled : Bool := false
  last : Option Outcome := none
  attempts : Nat := 0
  inFlight : Bool := false

/-- A program that is kept loaded. -/
structure Challenge where
  key : String
  timeout : Binary64
  source : Option Source := none
  invocations : Nat := 0
  lastStdout : Json := .str ""
  active : Bool := false

structure RemoteClient where
  baseUrl : String
  /-- The key for the judge and the host it is for. -/
  credentials : Option (String × String) := none
  /-- Seconds between two polls. -/
  pollInterval : Binary64
  /-- It is the client that executions use. -/
  shared : Bool := false

structure RemoteRequest where
  method : String
  url : String
  body : Json
  credentials : Option (String × String)

/-- How the sandbox is set up. -/
structure Setup where
  sessionRoot : Path
  startupTimeout : Binary64
  idleTimeout : Binary64
  keepLogs : Bool
  runTimeoutMs : Int
  batchTimeout : Binary64
  challengeTimeoutMs : Int
  remote : Option RemoteClient
  remoteMaxWait : Binary64
  /-- How many cases are graded at a time. -/
  workers : Nat := 1
  /-- Interpreters are reached over the network, where a request that goes wrong in its server is
  answered with 500. In a program that serves its interpreters itself, whoever asked fails. -/
  networked : Bool := false

structure Sandbox where
  setup : Setup
  /-- A client of the remote judge beside that of the engine. -/
  client : Option RemoteClient := none
  /-- Milliseconds. -/
  clock : Int := 0
  /-- How many identifiers were drawn. -/
  drawnIds : Nat := 0
  /-- Seeds to be drawn before the counted ones. -/
  seeds : List Int := []
  nextSeed : Int := 101
  /-- The seed that an interpreter last applied. -/
  appliedSeed : Option Int := none
  /-- Behaviour of the processes still to be started. -/
  scripts : List ChildScript := []
  /-- Answers to runs by their inputs, in place of those of the processes. -/
  byInputs : Option (List (String × Scripted)) := none
  children : List Child := []
  remoteScript : List Scripted := []
  /-- The shared client of the judge was closed and sends nothing more. -/
  remoteClosed : Bool := false
  remoteRequests : List RemoteRequest := []
  folders : Folders := []
  handles : List Handle := []
  records : List Record := []
  /-- The registry: session keys with the identities of their records. -/
  sessions : List (String × Nat) := []
  swept : List String := []
  engineSeeds : List (String × Int) := []
  otherSeeds : List (String × Int) := []
  runs : List RunInfo := []
  /-- Queues of executions that belong to no run. -/
  queues : List InputQueue := []
  contexts : List (String × Nat) := []
  challengeTable : List Challenge := []
  challenges : List (String × Nat) := []
  /-- Holds that clients have on sessions, by name: the key and the record. -/
  holds : List (String × String × Nat) := []
  runNames : List (String × Nat) := []
  handleNames : List (String × Nat) := []
  /-- What the commands gave that came in between. -/
  overheard : List Response := []

/-- What other clients do while a request is on its way. -/
abbrev Interrupts := List Command → Sandbox → Sandbox

/-- An operation: it changes the sandbox, also when it fails. -/
def Op (α : Type) : Type := Interrupts → Sandbox → Except Failure α × Sandbox

namespace Op

instance : Monad Op where
  pure a := fun _ s => (.ok a, s)
  bind x f := fun int s =>
    match x int s with
    | (.ok a, s) => f a int s
    | (.error e, s) => (.error e, s)

theorem bind_apply {α β : Type} (x : Op α) (f : α → Op β) (int : Interrupts) (s : Sandbox) :
    (x >>= f) int s = match x int s with
      | (.ok a, s) => f a int s
      | (.error e, s) => (.error e, s) := rfl

@[simp] theorem pure_apply {α : Type} (a : α) (int : Interrupts) (s : Sandbox) :
    (pure a : Op α) int s = (.ok a, s) := rfl

def fail {α : Type} (e : Failure) : Op α := fun _ s => (.error e, s)

def ofExcept {α : Type} : Except Failure α → Op α
  | .ok a => pure a
  | .error e => fail e

def view {α : Type} (f : Sandbox → α) : Op α := fun _ s => (.ok (f s), s)

def change (f : Sandbox → Sandbox) : Op Unit := fun _ s => (.ok (), f s)

/-- The outcome of an operation, which does not fail itself. -/
def outcome {α : Type} (x : Op α) : Op (Except Failure α) := fun int s =>
  let (r, s) := x int s
  (.ok r, s)

/-- Lets `other` take over when an operation fails. -/
def rescue {α : Type} (x : Op α) (other : Failure → Op α) : Op α := fun int s =>
  match x int s with
  | (.ok a, s) => (.ok a, s)
  | (.error e, s) => other e int s

/-- Runs `after` when an operation is over, however it ended; a failure of `after` comes first. -/
def ensuring {α : Type} (x : Op α) (after : Op Unit) : Op α := fun int s =>
  let (r, s) := x int s
  match after int s with
  | (.ok (), s) => (r, s)
  | (.error e, s) => (.error e, s)

/-- Lets other clients act. -/
def interleave (commands : List Command) : Op Unit := fun int s => (.ok (), int commands s)

end Op

namespace Sandbox

/-- The next identifier: eight hexadecimal digits of a count and four zeros. -/
def drawId : Op String := fun _ s =>
  let n := s.drawnIds + 1
  (.ok (String.ofList (Text.hexDigits 8 n ++ Text.hexDigits 4 0)), { s with drawnIds := n })

def drawSeed : Op Int := fun _ s =>
  match s.seeds with
  | n :: rest => (.ok n, { s with seeds := rest })
  | [] => (.ok s.nextSeed, { s with nextSeed := s.nextSeed + 1 })

def now : Op Int := Op.view (·.clock)

def sleep (seconds : Binary64) : Op Unit :=
  Op.change fun s => { s with clock := s.clock + seconds.toMillis }

def elapsedMs (started : Int) : Op Int := do
  let t ← now
  pure (((Binary64.ofMillis t).sub (Binary64.ofMillis started)).mul (.ofInt 1000)).truncate

def setChild (i : Nat) (f : Child → Child) : Op Unit :=
  Op.change fun s => { s with children := s.children.modify i f }

def setHandle (i : Nat) (f : Handle → Handle) : Op Unit :=
  Op.change fun s => { s with handles := s.handles.modify i f }

def setRecord (i : Nat) (f : Record → Record) : Op Unit :=
  Op.change fun s => { s with records := s.records.modify i f }

def setRun (i : Nat) (f : RunInfo → RunInfo) : Op Unit :=
  Op.change fun s => { s with runs := s.runs.modify i f }

def setChallenge (i : Nat) (f : Challenge → Challenge) : Op Unit :=
  Op.change fun s => { s with challengeTable := s.challengeTable.modify i f }

def need {α : Type} (find : Sandbox → Option α) : Op α := fun _ s =>
  match find s with
  | some a => (.ok a, s)
  | none => (.error (.other "KeyError"), s)

def child (i : Nat) : Op Child := need (·.children[i]?)

def handle (i : Nat) : Op Handle := need (·.handles[i]?)

def record (i : Nat) : Op Record := need (·.records[i]?)

def run (i : Nat) : Op RunInfo := need (·.runs[i]?)

def challenge (i : Nat) : Op Challenge := need (·.challengeTable[i]?)

end Sandbox

end Rerun
