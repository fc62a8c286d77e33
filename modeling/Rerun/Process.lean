import Rerun.Serving
import Rerun.Sandbox

/-!
Interpreter processes: starting one, looking whether it lives, killing it, and sending it requests.
A request is noted before anything else happens; then time passes, other clients act, and only then
is it answered.
-/

namespace Rerun.Process

open Sandbox

/-- Starts a process in a folder. A process that cannot be started counts as a dead one. -/
def launch (folder : Path) : Op (Except String Nat) := do
  let index ← Op.view (·.children.length)
  let script ← Op.view fun s => s.scripts.headD {}
  let child : Child := { script, folder, alive := script.spawnFailure.isNone }
  Op.change fun s => { s with scripts := s.scripts.tail, children := s.children ++ [child] }
  match script.spawnFailure with
  | some reason => pure (.error reason)
  | none =>
    match script.log with
    | none => pure (.ok index)
    | some log =>
      Op.change fun s => { s with folders := s.folders.update folder fun f =>
        { f with processLog := some (f.processLog.elim log (·.append log)) } }
      pure (.ok index)

def aliveAt (c : Child) : Bool :=
  c.alive && c.script.exitAfter.all (c.polls < ·)

def poll (i : Nat) : Op Bool := do
  let c ← child i
  let alive := aliveAt c
  setChild i fun c => { c with polls := c.polls + 1, alive }
  pure alive

/-- Ends a process, unless it is stubborn. -/
def kill (i : Nat) : Op Unit :=
  setChild i fun c => { c with alive := c.alive && c.script.stubborn }

def refusal : LinkFault := .transport "refused"

def health (i : Nat) : Op Health := do
  let c ← child i
  match c.script.health with
  | h :: rest =>
    setChild i fun c => { c with script := { c.script with health := rest } }
    pure h
  | [] => pure (if c.alive then .status 200 else .fault refusal)

/-- How an answer of the interpreter reaches the one who asked; a program that brings its process
down ends it. -/
def delivered (i : Nat) : Serving.Answer → Op Ended
  | .reply body => pure (.answer 200 (.json body))
  | .refused status => pure (.answer status .absent)
  | .hung => pure (.fault (.timeout "timed out"))
  | .crashed => do
    setChild i fun c => { c with alive := false }
    pure (.fault (.transport "Server disconnected without sending a response."))

/-- Lets the time pass that a program took. -/
def pass (ms : Nat) : Op Unit := Op.change fun s => { s with clock := s.clock + ms }

/-- The seed in force after a request that may bring one. -/
def applySeed (seed : Option Int) : Op (Option Int) := do
  Op.change fun s => { s with appliedSeed := seed.or s.appliedSeed }
  Op.view (·.appliedSeed)

def writeShown (folder : Path) (content : Content) : Op Unit :=
  Op.change fun s => { s with folders := s.folders.update folder fun f =>
    { f with shown := some content } }

/-- What a request comes to whose program has no folder to write to. -/
def homeless (setup : Setup) : Ended :=
  if setup.networked then .answer 500 .absent else .fault (.protocol "FileNotFoundError" "")

/-- Runs a program from its top. What it shows is written down in the folder of the process. -/
def serveRun (i : Nat) (request : Serving.RunRequest) : Op Ended := do
  let c ← child i
  if ← Op.view fun s => !s.folders.has c.folder then Op.view fun s => homeless s.setup
  else do
    let seed ← applySeed request.seed
    let (ending, m) := Serving.attempt seed request
    pass m.elapsed
    writeShown c.folder (.text (Program.transcript m.shown))
    delivered i (Serving.runAnswer ending m)

/-- Loads a program, whose names replace those of the one before. -/
def serveLoad (i : Nat) (request : Serving.LoadRequest) : Op Ended := do
  let seed ← applySeed request.seed
  let (ending, m) := Serving.load seed request
  pass m.elapsed
  setChild i fun c => { c with names := m.names }
  delivered i (Serving.loadAnswer ending m)

/-- Calls a function of the loaded program. -/
def serveCall (i : Nat) (request : Serving.CallRequest) : Op Ended := do
  let c ← child i
  let seed ← Op.view (·.appliedSeed)
  match Serving.call c.names seed request with
  | none => delivered i (Serving.undefinedAnswer request.function)
  | some (ending, m) => do
    pass m.elapsed
    setChild i fun c => { c with names := m.names }
    delivered i (Serving.callAnswer ending m)

/-- The answer of the interpreter itself; a request that does not fit is refused. -/
def serve (i : Nat) (path : String) (body : Json) : Op Ended := do
  let c ← child i
  if !c.alive then pure (.fault refusal)
  else if path = "/run" then
    match Shape.fitBody Serving.RunRequest.shape body with
    | .ok j => serveRun i (.ofFields j)
    | .error _ => pure (.answer 422 .absent)
  else if path = "/load" then
    match Shape.fitBody Serving.LoadRequest.shape body with
    | .ok j => serveLoad i (.ofFields j)
    | .error _ => pure (.answer 422 .absent)
  else
    match Shape.fitBody Serving.CallRequest.shape body with
    | .ok j => serveCall i (.ofFields j)
    | .error _ => pure (.answer 422 .absent)

/-- The inputs of a run, one on a line. -/
def inputsKey (body : Json) : String :=
  Text.joinLines ((body.itemsOf "inputs").filterMap Json.str?)

/-- The next thing that happens when a process gets a request. -/
def nextScripted (i : Nat) (path : String) (body : Json) : Op Scripted := do
  match path, ← Op.view (·.byInputs) with
  | "/run", some table =>
    pure ((table.lookup (inputsKey body)).getD { ended := some (.answer 500 .absent) })
  | _, _ => do
    let c ← child i
    match c.script.replies with
    | r :: rest =>
      setChild i fun c => { c with script := { c.script with replies := rest } }
      pure r
    | [] => pure {}

/-- A request on its way: it is noted, it is decided what happens to it, and others act. -/
def arrive (i : Nat) (path : String) (body : Json) : Op Scripted := do
  setChild i fun c => { c with posts := c.posts ++ [(path, body)] }
  let a ← nextScripted i path body
  Op.change fun s => { s with clock := s.clock + a.took }
  Op.interleave a.during
  pure a

/-- What is written down of a request that has arrived and is not answered by the interpreter. -/
def writeScripted (i : Nat) (a : Scripted) : Op Unit :=
  match a.shown with
  | some content => do
    let c ← child i
    writeShown c.folder content
  | none => pure ()

/-- How a request ends that has arrived. -/
def react (i : Nat) (path : String) (body : Json) (a : Scripted) : Op Ended := do
  writeScripted i a
  match a.ended with
  | some e => pure e
  | none => serve i path body

def post (i : Nat) (path : String) (body : Json) : Op Ended := do
  react i path body (← arrive i path body)

end Rerun.Process
