import Rerun.Process
import Rerun.Json.Reader

/-!
Handles on interpreters. A handle starts a process in its folder and waits until it is up; a request
that outlives its time, or that gets no answer, ends the process.
-/

namespace Rerun.Interpreter

open Sandbox

def create (folder : Path) (startupTimeout : Binary64) : Op Nat := do
  let index ← Op.view (·.handles.length)
  Op.change fun s => { s with handles := s.handles ++ [{ folder, startupTimeout }] }
  pure index

/-- Ends the process behind a handle, if it lives. -/
def kill (h : Nat) : Op Unit := do
  let handle ← handle h
  match handle.child with
  | none => pure ()
  | some c => if ← Process.poll c then Process.kill c else pure ()

def reset (h : Nat) : Op Unit := do
  kill h
  setHandle h fun x => { x with child := none }

/-- The end of what the process has printed. -/
def logTail (folder : Path) : Op String :=
  Op.view fun s =>
    let cs := (s.folders.processLogText folder).toList
    String.ofList (cs.drop (cs.length - 2000))

/-- Asks a process once whether it is up; it never will be when the deadline has come or it is found
dead. -/
def askUp (h c : Nat) (deadline : Binary64) : Op Health := do
  let handle ← handle h
  let t ← now
  if !(Binary64.ofMillis t).lt deadline then
    reset h
    Op.fail (.startTimeout handle.startupTimeout)
  else if !(← Process.poll c) then
    let tail ← logTail handle.folder
    reset h
    Op.fail (.exitedEarly tail)
  else Process.health c

/-- What an answer says of a process that is waited for: that it is up, that it never will be, or
nothing yet. -/
def verdict : Health → Option (Except Failure Unit)
  | .status n => if n = 200 then some (.ok ()) else none
  | .fault (.protocol name _) => some (.error (.other name))
  | .fault _ => none

/-- Waits until the process is up; the answers that are written down for it end with one that it
gives itself, which is not waited for again. -/
def awaitUp (h c : Nat) (deadline : Binary64) : (pending : List Health) → Op Unit
  | [] => do
    match verdict (← askUp h c deadline) with
    | some said => Op.ofExcept said
    | none => pure ()
  | _ :: rest => do
    match verdict (← askUp h c deadline) with
    | some said => Op.ofExcept said
    | none => do
      sleep (.ofDecimal false 5 (-2))
      awaitUp h c deadline rest

/-- Puts a launched process behind a handle and waits until it is up. -/
def attach (h : Nat) (timeout : Binary64) : Except String Nat → Op Unit
  | .error reason => do
    reset h
    Op.fail (.spawnFailed reason)
  | .ok c => do
    setHandle h fun x => { x with child := some c }
    let t ← now
    let pending ← Op.view fun s => (s.children[c]?.map (·.script.health)).getD []
    awaitUp h c ((Binary64.ofMillis t).add timeout) pending

/-- Starts a process behind a handle and waits until it is up. -/
def start (h : Nat) : Op Unit := do
  let handle ← handle h
  if !handle.folder.isMakeable then Op.fail (.other "OSError")
  else do
    let port ← Op.view fun s => 40000 + s.children.length
    Op.change fun s => { s with folders := s.folders.revise handle.folder fun f =>
      { f with processLog := some (f.processLog.getD (.text "")) } }
    setHandle h fun x => { x with port := some port }
    attach h handle.startupTimeout (← Process.launch handle.folder)

/-- Whether the process behind a handle answers. -/
def probe (h : Nat) : Op Bool := do
  let handle ← handle h
  match handle.child with
  | none => pure false
  | some c => do
    if !(← Process.poll c) then pure false
    else
      match ← Process.health c with
      | .status n => pure (n = 200)
      | .fault _ => pure false

/-- What the program that ran last has shown, as far as it was written down. -/
def shown (h : Nat) : Op String := do
  let handle ← handle h
  Op.view (·.folders.shownText handle.folder)

/-- What a lost run had shown; for other requests nothing. -/
def shownOf (h : Nat) (path : String) : Op String :=
  if path = "/run" then shown h else pure ""

def isSuccess (status : Int) : Bool := 200 ≤ status && status < 300

def readBody : Body → Op Json
  | .json j => pure j
  | .absent => Op.fail (.unreadableJson (Json.faultMessage "" ⟨.value, 0⟩))
  | .text s =>
    match Json.readBody s with
    | .ok j => pure j
    | .error fault => Op.fail (.unreadableJson (Json.faultMessage s fault))

/-- What becomes of a request through a handle when it has ended. -/
def heard (h : Nat) (path : String) (timeout : Binary64) : Ended → Op Json
  | .interrupt => Op.fail .interrupted
  | .answer status body =>
    if isSuccess status then readBody body else Op.fail (.answeredStatus status path)
  | .fault (.timeout _) => do
    kill h
    Op.fail (.exceeded timeout (← shownOf h path))
  | .fault (.transport reason) => do
    let text ← shownOf h path
    kill h
    Op.fail (.stoppedResponding reason text)
  | .fault (.protocol name _) => Op.fail (.other name)

/-- The process that a request with a body goes to. -/
def addressee (h : Nat) (body : Json) : Op Nat := do
  let handle ← handle h
  match handle.child with
  | none => Op.fail .notRunning
  | some c =>
    if body.hasNonFinite then
      Op.fail (.badValue "Out of range float values are not JSON compliant")
    else pure c

def post (h : Nat) (path : String) (body : Json) (timeout : Binary64) : Op Json := do
  let c ← addressee h body
  heard h path timeout (← Process.post c path body)

def execute (h : Nat) (request : Json) (timeout : Binary64) : Op Json :=
  post h "/run" request timeout

/-- Loads a program whose names stay. -/
def load (h : Nat) (code : String) (timeout : Binary64) (seed : Json) : Op Json :=
  post h "/load" (.obj [("code", .str code), ("seed", seed)]) timeout

/-- Calls a function of the loaded program. -/
def call (h : Nat) (function : String) (args : List Json) (timeout : Binary64) : Op Json :=
  post h "/call" (.obj [("function", .str function), ("args", .arr args)]) timeout

def baseUrl (h : Nat) : Op String := do
  let handle ← handle h
  match handle.port with
  | none => Op.fail .notInitialized
  | some port => pure ("http://127.0.0.1:" ++ Text.decimal port)

end Rerun.Interpreter
