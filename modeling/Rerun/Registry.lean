import Rerun.Interpreter

/-!
The registry of sessions. A key leads to a record as long as its session is registered; clients hold
a session while they use its interpreter, and a session that has not been used for long is swept
when another one is asked for.
-/

namespace Rerun.Registry

open Sandbox

def find? (s : Sandbox) (key : String) : Option Nat := s.sessions.lookup key

def get (key : String) : Op Nat := fun _ s =>
  match find? s key with
  | some r => (.ok r, s)
  | none => (.error (.unknownSession key), s)

/-- The folder of a session. No path holds the null character. -/
def folderOf (setup : Setup) (key : String) : Except Failure Path :=
  if key.toList.contains '\x00' then .error (.badValue "embedded null byte")
  else .ok (setup.sessionRoot.resolve key)

def timeText (ms : Int) : Json := .str ("t=" ++ Text.decimal ms)

/-- Adds an event to the journal of a registered session, when journals are kept. -/
def writeJournal (key : String) (entry : List (String × Json)) : Op Unit := do
  let s ← Op.view id
  if !s.setup.keepLogs then pure ()
  else
    match find? s key with
    | none => pure ()
    | some r => do
      let info ← record r
      let entry := if (entry.lookup "timestamp").isSome then entry
        else Assoc.put entry "timestamp" (timeText s.clock)
      Op.change fun s => { s with folders := s.folders.revise info.folder fun f =>
        { f with journal := some (f.journal.getD [] ++ [.obj entry]) } }

/-- Fields that are put over those of a metadata file; a file that is not readable counts for
nothing, and one that is no object cannot be changed. -/
def mergeMetadata (file : Option (Option Json)) (fields : List (String × Json)) :
    Except Failure Json :=
  match file with
  | some (some (.obj before)) => .ok (.obj (fields.foldl (fun fs f => Assoc.put fs f.1 f.2) before))
  | some (some _) => .error (.other "AttributeError")
  | _ => .ok (.obj fields)

/-- Changes fields of the metadata of a registered session, when journals are kept. -/
def writeMetadata (key : String) (fields : List (String × Json)) : Op Unit := do
  let s ← Op.view id
  if !s.setup.keepLogs then pure ()
  else
    match find? s key with
    | none => pure ()
    | some r => do
      let info ← record r
      let file := (s.folders.find? info.folder).bind (·.metadata)
      let merged ← Op.ofExcept (mergeMetadata file fields)
      Op.change fun s => { s with folders := s.folders.revise info.folder fun f =>
        { f with metadata := some (some merged) } }

/-- Takes a session down and drops it from the registry; nothing happens to an unknown key. -/
def reset (key : String) : Op Unit := do
  match ← Op.view (find? · key) with
  | none => pure ()
  | some r => do
    writeJournal key [("event", .str "session_stopped")]
    let info ← record r
    let t ← now
    writeMetadata key [("stopped_at", timeText t), ("final_execution_count", .int info.executions)]
    Op.change fun s => { s with sessions := Assoc.drop s.sessions key }
    Interpreter.reset info.handle
    if ← Op.view (!·.setup.keepLogs) then
      Op.change fun s => { s with folders := s.folders.remove info.folder }
    else pure ()

/-- Notes an execution of a registered session. -/
def note (key : String) (entry : Json) : Op Unit := do
  match ← Op.view (find? · key) with
  | none => pure ()
  | some r => do
    setRecord r fun x => { x with executions := x.executions + 1 }
    match entry with
    | .obj fields => do
      let event := (fields.lookup "event").getD (.str "execution")
      writeJournal key (Assoc.put fields "event" event)
      let info ← record r
      let t ← now
      writeMetadata key [("execution_count", .int info.executions), ("last_used", timeText t)]
    | _ => Op.fail (.other "AttributeError")

/-- Whether a session has not been used for longer than sessions may stay idle. -/
def isIdle (s : Sandbox) (info : Record) : Bool :=
  info.state ≠ .busy &&
    s.setup.idleTimeout.lt ((Binary64.ofMillis s.clock).sub (Binary64.ofMillis info.lastUsed))

/-- Sweeps the sessions of a list that were idle at the start of the sweep, and tells `listener` the
key of each. -/
def sweepAll (listener : String → Op Unit) (before : Sandbox) : List (String × Nat) → Op Unit
  | [] => pure ()
  | (key, r) :: rest => do
    let info ← record r
    if isIdle before info then do
      reset key
      listener key
    else pure ()
    sweepAll listener before rest

def sweep (listener : String → Op Unit) : Op Unit := do
  let s ← Op.view id
  sweepAll listener s s.sessions

/-- Starts an interpreter for a session, for the second time if the first start failed. -/
def startTwice (folder : Path) (timeout : Binary64) (key : String) :
    (attempts : Nat) → Failure → Op Nat
  | 0, last => Op.fail (.startFailed key last.message)
  | attempts + 1, _ => do
    let h ← Interpreter.create folder timeout
    match ← Op.outcome (Interpreter.start h) with
    | .ok () => do
      let index ← Op.view (·.records.length)
      Op.change fun s => { s with records := s.records ++
        [{ handle := h, folder, state := .ready, lastUsed := s.clock }] }
      pure index
    | .error e =>
      if e.kind = .initialization then do
        Interpreter.reset h
        startTwice folder timeout key attempts e
      else Op.fail e

/-- Starts the interpreter of a session; the new record is not registered yet. -/
def start (key : String) : Op Nat := do
  let setup ← Op.view (·.setup)
  let folder ← Op.ofExcept (folderOf setup key)
  startTwice folder setup.startupTimeout key 2 .notInitialized

/-- Starts a session and registers it under a key. -/
def register (key : String) : Op Nat := do
  let r ← start key
  Op.change fun s => { s with sessions := Assoc.put s.sessions key r }
  pure r

/-- Registers a new session under a key and writes its metadata and its journal. -/
def enter (key : String) : Op Unit := do
  let r ← register key
  let info ← record r
  let t ← now
  writeMetadata key [("session_id", .str key), ("created_at", timeText t),
    ("session_dir", .str info.folder.text), ("execution_count", .int 0), ("last_used", timeText t)]
  writeJournal key [("event", .str "session_started")]

/-- Whether a registered session can be used as it is: another client holds it, or its interpreter
answers. -/
def usable (r : Nat) : Op Bool := do
  let info ← record r
  match info.state with
  | .busy => pure true
  | .ready => do
    if ← Interpreter.probe info.handle then do
      let t ← now
      setRecord r fun x => { x with lastUsed := t }
      pure true
    else pure false
  | _ => pure false

/-- The key asked for, or a new one. -/
def keyFor (key : Option String) : Op String :=
  match key with
  | some k => if k = "" then anonymous else pure k
  | none => anonymous
where
  anonymous : Op String := do
    let id ← drawId
    pure ("anon-" ++ String.ofList (id.toList.take 8))

/-- Sees to it that a live session is registered under a key: the one that is, if it can be used, or
else a new one. -/
def provide (key : String) : Op Unit := do
  match ← Op.view (find? · key) with
  | none => enter key
  | some r => do
    if ← usable r then pure ()
    else do
      reset key
      enter key

/-- A live session for a key. Idle sessions are swept first. -/
def acquire (listener : String → Op Unit) (key : Option String) : Op String := do
  sweep listener
  let key ← keyFor key
  provide key
  pure key

def stateOf (s : Sandbox) (key : String) : SessionState :=
  match find? s key with
  | none => .uninitialized
  | some r => (s.records[r]?.map (·.state)).getD .uninitialized

/-- Begins to hold a session. -/
def hold (key : String) : Op Nat := do
  let r ← get key
  let info ← record r
  if info.locked then Op.fail (.sessionBusy key)
  else do
    setRecord r fun x => { x with state := .busy, locked := true }
    pure r

/-- Ends a hold. When the interpreter was lost, the session registered under the key is taken
down. -/
def release (key : String) (r : Nat) (how : Departure) : Op Unit := do
  match how with
  | .normal => do
    let t ← now
    setRecord r fun x => { x with state := .ready, lastUsed := t, locked := false }
  | .lost => do
    setRecord r fun x => { x with state := .corrupted, locked := false }
    reset key
  | .failed => setRecord r fun x => { x with state := .ready, locked := false }

/-- How a hold ends that a failure ends. -/
def departure (f : Failure) : Departure := if f.losesInterpreter then .lost else .failed

/-- Ends a hold however the session was used. -/
def letGo {α : Type} (key : String) (r : Nat) : Except Failure α → Op α
  | .ok a => do
    release key r .normal
    pure a
  | .error e => do
    release key r (departure e)
    Op.fail e

/-- Uses the interpreter of a session while holding it. -/
def holding {α : Type} (key : String) (use : Nat → Op α) : Op α := do
  let r ← hold key
  let info ← record r
  letGo key r (← Op.outcome (use info.handle))

def resetAll : Op (List String) := do
  let keys ← Op.view fun s => s.sessions.map (·.1)
  keys.forM reset
  pure keys

end Rerun.Registry
