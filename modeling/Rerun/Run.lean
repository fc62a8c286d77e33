import Rerun.Execution

/-!
Logical runs. A run owns its input queue and keeps one seed; each attempt executes the program from
its top with all values of the queue, and a value can be added only when the last attempt asked for
one. Seeds are kept in tables by the identity of their run.
-/

namespace Rerun

open Sandbox

namespace Seeds

def table (owner : SeedOwner) (s : Sandbox) : List (String × Int) :=
  match owner with
  | .engine => s.engineSeeds
  | .other => s.otherSeeds

def setTable (owner : SeedOwner) (f : List (String × Int) → List (String × Int)) (s : Sandbox) :
    Sandbox :=
  match owner with
  | .engine => { s with engineSeeds := f s.engineSeeds }
  | .other => { s with otherSeeds := f s.otherSeeds }

/-- The seed of a run, which is drawn when the run has none. -/
def draw (owner : SeedOwner) (runId : String) : Op Int := do
  match ← Op.view fun s => (table owner s).lookup runId with
  | some n => pure n
  | none => do
    let n ← drawSeed
    Op.change (setTable owner (Assoc.put · runId n))
    pure n

def find? (owner : SeedOwner) (runId : String) : Op (Option Int) :=
  Op.view fun s => (table owner s).lookup runId

def forget (owner : SeedOwner) (runId : String) : Op Unit :=
  Op.change (setTable owner (Assoc.drop · runId))

end Seeds

namespace RunInfo

def awaitsInput (r : RunInfo) : Bool := r.last.any (·.awaitsInput)

/-- What an attempt at the run with that index executes. -/
def request (r : RunInfo) (i : Nat) (seed : Int) : Execution.Request where
  source := r.source
  key := r.key
  values := r.queue.values
  seed := some seed
  timeout := r.timeout
  runId := some r.runId
  cancel := .run i

/-- The run as clients see it. -/
def toJson (r : RunInfo) (seed : Option Int) : Json := .obj [
  ("run_id", .str r.runId), ("key", .str r.key), ("awaiting", .bool r.awaitsInput),
  ("in_flight", .bool r.inFlight), ("attempts", .int r.attempts),
  ("queue", .arr (r.queue.values.map .str)), ("cursor", .int r.queue.cursor),
  ("seed", Json.ofOption .int seed), ("cancelled", .bool r.cancelled),
  ("last", Json.ofOption (fun o : Outcome => .str o.status.name) r.last)]

end RunInfo

namespace Run

def freshIdentity : Op String := do
  let id ← drawId
  pure ("run-" ++ id)

def identity : Option String → Op String
  | some id => if id = "" then freshIdentity else pure id
  | none => freshIdentity

def create (owner : SeedOwner) (source : Source) (key : String) (timeout : Binary64)
    (values : List String) (runId : Option String) : Op Nat := do
  let runId ← identity runId
  let index ← Op.view (·.runs.length)
  Op.change fun s => { s with runs := s.runs ++
    [{ source, key, timeout, queue := { values }, runId, owner }] }
  pure index

/-- Begins an attempt at a run: its queue is read from the start again, and its seed is drawn if it
has none. -/
def prepare (i : Nat) : Op Execution.Request := do
  setRun i fun r => { r with queue := r.queue.rewind, attempts := r.attempts + 1 }
  let r ← run i
  let seed ← Seeds.draw r.owner r.runId
  pure (r.request i seed)

def markConsumed (i : Nat) (n : Int) : Op Unit :=
  setRun i fun r => { r with queue := r.queue.markConsumed n }

/-- Executes the program of a run with all values of its queue. -/
def attempt (listener : String → Op Unit) (i : Nat) (echo : Option Json) : Op Outcome := do
  let request ← prepare i
  let outcome ← Execution.execute listener (markConsumed i) request
  let outcome := outcome.echoing echo
  setRun i fun r => { r with last := some outcome }
  pure outcome

/-- Keeps a run in flight during an attempt; a run that is in flight already refuses with `busy`. -/
def inFlight {α : Type} (i : Nat) (busy : String → Failure) (x : Op α) : Op α := do
  let r ← run i
  if r.inFlight then Op.fail (busy r.runId)
  else do
    setRun i fun r => { r with inFlight := true }
    Op.ensuring x (setRun i fun r => { r with inFlight := false })

/-- The first attempt of a run. -/
def start (listener : String → Op Unit) (i : Nat) (echo : Option Json) : Op Outcome :=
  inFlight i .attemptInFlight do
    let r ← run i
    let _ ← Seeds.draw r.owner r.runId
    attempt listener i echo

/-- Adds a value and executes the program again. -/
def resume (listener : String → Op Unit) (i : Nat) (value : Json) : Op Outcome :=
  inFlight i .resumeInFlight do
    let r ← run i
    if r.awaitsInput then do
      setRun i fun r => { r with queue := r.queue.append (Execution.asText value) }
      attempt listener i (some value)
    else Op.fail (.notAwaiting r.runId)

/-- Abandons a run: its event is set, and its seed and its session are dropped. -/
def cancel (i : Nat) : Op Unit := do
  setRun i fun r => { r with cancelled := true }
  let r ← run i
  Seeds.forget r.owner r.runId
  Registry.reset r.key

/-- The run as clients see it. -/
def info (i : Nat) : Op Json := do
  let r ← run i
  let seed ← Seeds.find? r.owner r.runId
  pure (r.toJson seed)

end Run

end Rerun
