import Rerun.Challenge
import Rerun.Grading

/-!
What clients reach by name: one run for each context, and one challenge for each name. A submission
either resumes the run of its context, when it continues exactly what that run has seen, or starts
a new run in its place.
-/

namespace Rerun.Contexts

open Sandbox

def runKey (context : String) : String := "run-" ++ context

def challengeKey (name : String) : String := "challenge-" ++ name

def run? (context : String) (s : Sandbox) : Option Nat := s.contexts.lookup context

/-- The kind of a session key and the name behind it. -/
def splitKey (key : String) : String × String :=
  let cs := key.toList
  (String.ofList (cs.takeWhile (· ≠ '-')), String.ofList ((cs.dropWhile (· ≠ '-')).drop 1))

/-- Forgets the run of a context whose session was swept, unless it is in flight: then it makes a
new session itself. -/
def forgetRun (context : String) : Op Unit := do
  match ← Op.view (run? context) with
  | none => pure ()
  | some i => do
    let r ← run i
    if r.inFlight then pure ()
    else do
      Op.change fun s => { s with contexts := Assoc.drop s.contexts context }
      Seeds.forget r.owner r.runId

/-- Forgets a challenge whose session was swept. -/
def forgetChallenge (name : String) : Op Unit := do
  match ← Op.view (·.challenges.lookup name) with
  | none => pure ()
  | some i => do
    Op.change fun s => { s with challenges := Assoc.drop s.challenges name }
    Challenge.expire i

/-- Forgets what depends on a session, by the kind of its key and the name behind it. -/
def forgetFor : String × String → Op Unit
  | ("run", context) => forgetRun context
  | ("challenge", name) => forgetChallenge name
  | _ => pure ()

/-- What happens when a session is swept: what depends on it is forgotten, and its key is noted. -/
def onSweep (key : String) : Op Unit := do
  forgetFor (splitKey key)
  Op.change fun s => { s with swept := s.swept ++ [key] }

/-- Leaves the run of a context, if there is one. -/
def leave (context : String) : Op Unit := do
  match ← Op.view (run? context) with
  | none => pure ()
  | some i => do
    Op.change fun s => { s with contexts := Assoc.drop s.contexts context }
    Run.cancel i

/-- A new run for a context; the one before is abandoned. -/
def newRun (context : String) (source : Source) (values : List String) : Op Nat := do
  leave context
  let timeout ← Op.ofExcept (secondsOf (← Op.view (·.setup.runTimeoutMs)))
  let i ← Run.create .engine source (runKey context) timeout values none
  Op.change fun s => { s with contexts := Assoc.put s.contexts context i }
  pure i

/-- Whether a submission continues a run: the same program, waiting for input, after the same
values. -/
def continues (r : RunInfo) (source : Source) (prior : List String) : Bool :=
  r.source = source && r.awaitsInput && r.queue.values = prior

/-- The run of a context that a submission continues. -/
def resumable (context : String) (source : Source) (prior : List String) : Op (Option Nat) := do
  match ← Op.view (run? context) with
  | none => pure none
  | some i => do
    let r ← run i
    pure (if continues r source prior then some i else none)

/-- Refuses a context whose run is in flight. -/
def ensureIdle (context : String) : Op Unit := do
  match ← Op.view (run? context) with
  | none => pure ()
  | some i => do
    let r ← run i
    if r.inFlight then Op.fail (.contextInFlight context) else pure ()

/-- Starts a run over, or resumes it when the submission continues it. -/
def submit (context : String) (source : Source) (prior : List Json) (newest : Option Json) :
    Op Outcome := do
  let prior := prior.map Execution.asText
  ensureIdle context
  match newest with
  | none => do
    let i ← newRun context source prior
    Run.start onSweep i none
  | some value =>
    match ← resumable context source prior with
    | some i => Run.resume onSweep i value
    | none => do
      let i ← newRun context source (prior ++ [Execution.asText value])
      Run.start onSweep i (some value)

def abandon (context : String) : Op Unit := do
  match ← Op.view (run? context) with
  | none => Registry.reset (runKey context)
  | some _ => leave context

/-- The challenge of a name, which is made when there is none. -/
def challengeOf (name : String) : Op Nat := do
  match ← Op.view (·.challenges.lookup name) with
  | some i => pure i
  | none => do
    let timeout ← Op.ofExcept (secondsOf (← Op.view (·.setup.challengeTimeoutMs)))
    let i ← Op.view (·.challengeTable.length)
    Op.change fun s => { s with
      challengeTable := s.challengeTable ++ [{ key := challengeKey name, timeout }]
      challenges := Assoc.put s.challenges name i }
    pure i

def closeChallenge (name : String) : Op Unit := do
  match ← Op.view (·.challenges.lookup name) with
  | none => pure ()
  | some i => do
    Op.change fun s => { s with challenges := Assoc.drop s.challenges name }
    Challenge.teardown i

/-- Gives everything up: runs, challenges, and what is left of the sessions. -/
def closeAll : Op Unit := do
  (← Op.view fun s => s.contexts.map (·.1)).forM abandon
  (← Op.view fun s => s.challenges.map (·.1)).forM closeChallenge
  let _ ← Registry.resetAll
  Op.change fun s => { s with remoteClosed := true }

/-- Grades a source on test cases. -/
def grade (source : String) (cases : List TestCase) (options : GradingOptions) :
    Op (List Verdict) :=
  Grading.all onSweep { code := source } cases options

end Rerun.Contexts
