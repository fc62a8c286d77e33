import Rerun.Service

/-!
What each command does, and commands given one after the other. While the request of a command is
on its way the commands of other clients are carried out; their responses are added to its own.
-/

namespace Rerun

open Sandbox

namespace Conversation

def quiet (x : Op Unit) : Op Json := do
  x
  pure .null

/-- What a table holds under a name that a client has given. -/
def named (table : Sandbox → List (String × Nat)) (name : String) : Op Nat :=
  need fun s => (table s).lookup name

def childJson (c : Child) : Json := .obj [
  ("alive", .bool c.alive), ("posts", .int c.posts.length), ("dir", .str c.folder.text)]

def remoteRequestJson (r : RemoteRequest) : Json := .obj [
  ("method", .str r.method), ("url", .str r.url), ("body", r.body),
  ("key", Json.ofString? (r.credentials.map (·.1))),
  ("host", Json.ofString? (r.credentials.map (·.2))),
  ("content_type", .str "application/json")]

/-- What every interpreter process is told, so that programs run the same way each time. -/
def childSettingsJson : Json := .obj [
  ("PYTHONHASHSEED", .str "0"), ("PYTHONUNBUFFERED", .str "1")]

/-- Where a process finds its modules: those of the project come first. -/
def searchPath (inherited : Option String) : String :=
  match inherited with
  | none | some "" => "<project>"
  | some path => "<project>:" ++ path

def recordJson (s : Sandbox) (r : Record) : Json := .obj [
  ("state", .str r.state.name), ("executions", .int r.executions), ("dir", .str r.folder.text),
  ("dir_exists", .bool (s.folders.has r.folder)), ("last_used_ms", .int r.lastUsed),
  ("locked", .bool r.locked)]

/-- The registered sessions in the order of their keys. -/
def sessionsJson (s : Sandbox) : Json :=
  let line (e : String × Nat) : Option Json :=
    s.records[e.2]?.map fun r => .arr [.str e.1, .str r.state.name, .int r.executions]
  .arr ((s.sessions.mergeSort fun a b => a.1 ≤ b.1).filterMap line)

def textsJson (texts : List String) : Json := .arr (texts.map .str)

def fitted {α : Type} (read : Json → Except (List Issue) α) (j : Json) : Op α :=
  match read j with
  | .ok a => pure a
  | .error issues => Op.fail (.invalid issues)

def grade (source : String) (cases : List Json) (options : Json) : Op Json := do
  let cases ← cases.mapM (fitted TestCase.read)
  let options ← match options with
    | .null => pure {}
    | j => fitted GradingOptions.read j
  let verdicts ← Contexts.grade source cases options
  pure (summaryJson verdicts)

def markConsumed (i : Nat) (n : Int) : Op Unit :=
  Op.change fun s => { s with queues := s.queues.modify i (·.markConsumed n) }

/-- A single execution with a queue of its own. -/
def execute (source : Source) (key : String) (inputs : List String) (seed : Option Int)
    (mode : RunMode) (timeout : Binary64) (echo : Bool) (runId : Option String)
    (cancel : CancelAt) : Op Json := do
  let i ← Op.view (·.queues.length)
  Op.change fun s => { s with queues := s.queues ++ [{ values := inputs }] }
  let outcome ← Execution.execute Contexts.onSweep (markConsumed i) {
    source, key, values := inputs, seed, mode, timeout, echo, runId, cancel := .at cancel }
  let queue ← need (·.queues[i]?)
  pure (.obj [("result", outcome.toJson), ("cursor", .int queue.cursor),
    ("exhausted", .bool queue.exhausted)])

def contextJson (context : String) : Op Json := do
  match ← Op.view (Contexts.run? context) with
  | none => pure .null
  | some i => Run.info i

def listed (i : Nat) : Op Child :=
  Op.rescue (child i) fun _ => Op.fail (.other "IndexError")

def challengeJson (c : Challenge) : Json := .obj [
  ("active", .bool c.active), ("invocations", .int c.invocations),
  ("last_stdout", c.lastStdout), ("key", .str c.key)]

def runNew (name : String) (source : Source) (key : String) (timeout : Binary64)
    (inputs : List String) (runId : Option String) : Op Json := do
  let i ← Run.create .other source key timeout inputs runId
  Op.change fun s => { s with runNames := Assoc.put s.runNames name i }
  Run.info i

def seedTable (request : SeedRequest) (runId : String) : Op Json :=
  match request with
  | .draw | .apply => .int <$> Seeds.draw .other runId
  | .seed => Json.ofOption .int <$> Seeds.find? .other runId
  | .reset => quiet (Seeds.forget .other runId)

/-- Gives up the hold of a name, if there is one, as if something had failed in it. -/
def giveUp (name : String) : Op Unit := do
  match ← Op.view (·.holds.lookup name) with
  | none => pure ()
  | some (key, r) => Registry.release key r .failed

/-- Begins a hold under a name, which an earlier hold of the same name loses. -/
def hold (key name : String) : Op Json := do
  let r ← Registry.hold key
  giveUp name
  Op.change fun s => { s with holds := Assoc.put s.holds name (key, r) }
  let info ← record r
  pure (.str info.state.name)

def release (name : String) (how : Departure) : Op Json := do
  match ← Op.view (·.holds.lookup name) with
  | none => pure (.str "no such hold")
  | some (key, r) => do
    Op.change fun s => { s with holds := Assoc.drop s.holds name }
    Registry.release key r how
    pure (if how = .normal then .bool false else .obj [("swallowed", .bool false)])

def folderAt (name : String) : Op (Path × Option Folder) := Op.view fun s =>
  let path := s.setup.sessionRoot.resolve name
  (path, s.folders.find? path)

def readJournal (name : String) : Op Json := do
  let (_, folder) ← folderAt name
  pure (Json.ofOption .arr (folder.bind (·.journal)))

def readMetadata (name : String) : Op Json := do
  let (_, folder) ← folderAt name
  match folder.bind (·.metadata) with
  | none => pure .null
  | some (some j) => pure j
  | some none => Op.fail (.other "JSONDecodeError")

def writeMetadata (name text : String) : Op Json := do
  let (path, folder) ← folderAt name
  if folder.isNone then Op.fail (.other "FileNotFoundError")
  else do
    Op.change fun s => { s with folders := s.folders.update path fun f =>
      { f with metadata := some (Json.read? text) } }
    pure (.bool true)

def handleNew (name : String) (startupTimeout : Binary64) : Op Json := do
  let h ← Interpreter.create ((Path.work.resolve "work").resolve name) startupTimeout
  Op.change fun s => { s with handleNames := Assoc.put s.handleNames name h }
  pure (.bool true)

def askHandle (h : Nat) : HandleRequest → Op Json
  | .start => quiet (Interpreter.start h)
  | .baseUrl => .str <$> Interpreter.baseUrl h
  | .probe => .bool <$> Interpreter.probe h
  | .execute request timeout => Interpreter.execute h request timeout
  | .load code timeout seed => Interpreter.load h code timeout seed
  | .call function args timeout => Interpreter.call h function args timeout
  | .readShown => .str <$> Interpreter.shown h
  | .reset => quiet (Interpreter.reset h)
  | .searchPath inherited => pure (.str (searchPath inherited))

def client : Op RemoteClient := need (·.client)

def remoteExecute (source stdin : String) (expected : Option String) (maxWait : Binary64)
    (cancel : CancelAt) : Op Json := do
  let c ← client
  let response ← c.execute source stdin expected maxWait (.at cancel)
  pure (Json.ofOption RemoteResponse.toJson response)

def remotePoll (token : String) : Op Json := do
  let c ← client
  let response ← c.poll (.str token)
  pure (.obj [("response", response.toJson), ("finished", .bool response.finished)])

/-- A service of its own is started and stopped around a look at its health; with it the sandbox is
closed when the service is the sandbox's own. -/
def lifespan (own : Bool) : Op Json := do
  if own then Contexts.closeAll else pure ()
  pure (.arr [.obj [("ok", .bool true)], .bool own])

def gives (x : Op Json) : Op Response := .value <$> x

/-- What a command does and gives. -/
def perform : Command → Op Response
  | .unfit issues => gives <| Op.fail (.invalid issues)
  | .advance ms => gives do
    Op.change fun s => { s with clock := s.clock + ms }
    .int <$> now
  | .clock => gives <| .int <$> now
  | .die i => gives do
    let _ ← listed i
    setChild i fun c => { c with alive := false }
    pure (.bool true)
  | .children => gives <| Op.view fun s => .arr (s.children.map childJson)
  | .posts i => gives do
    let c ← listed i
    pure (.arr (c.posts.map fun p => .arr [.str p.1, p.2]))
  | .remoteRequests => gives <| Op.view fun s => .arr (s.remoteRequests.map remoteRequestJson)
  | .childSettings => gives <| pure childSettingsJson
  | .submit context source prior newest => gives <|
    Outcome.toJson <$> Contexts.submit context source prior newest
  | .resetRun context => gives <| quiet (Contexts.abandon context)
  | .getRun context => gives <| contextJson context
  | .batch source cases options => gives <| grade source cases options
  | .gradeOne unit input expected timeLimit echo checker => gives <|
    Verdict.toJson <$>
      Grading.one Contexts.onSweep { unit, input, expected, timeLimit, echo, checker }
  | .challengeLoad id source => gives do
    Challenge.load Contexts.onSweep (← Contexts.challengeOf id) source
  | .challengeInvoke id function args => gives do
    Challenge.invoke (← Contexts.challengeOf id) function args
  | .challengeInfo id => gives do
    challengeJson <$> challenge (← Contexts.challengeOf id)
  | .challengeTeardown id => gives do
    quiet (Challenge.teardown (← Contexts.challengeOf id))
  | .challengeClose id => gives <| quiet (Contexts.closeChallenge id)
  | .close => gives <| quiet Contexts.closeAll
  | .execute source key inputs seed mode timeout echo runId cancel => gives <|
    execute source key inputs seed mode timeout echo runId cancel
  | .runNew name source key timeout inputs runId => gives <|
    runNew name source key timeout inputs runId
  | .runStart name echo => gives do
    Outcome.toJson <$> Run.start Contexts.onSweep (← named (·.runNames) name) echo
  | .runResume name value => gives do
    Outcome.toJson <$> Run.resume Contexts.onSweep (← named (·.runNames) name) value
  | .runCancel name => gives <| do quiet (Run.cancel (← named (·.runNames) name))
  | .runInfo name => gives <| do Run.info (← named (·.runNames) name)
  | .seedTable request runId => gives <| seedTable request runId
  | .sessions => gives <| Op.view sessionsJson
  | .acquire key => gives <| .str <$> Registry.acquire Contexts.onSweep key
  | .sessionState key => gives <| Op.view fun s => .str (Registry.stateOf s key).name
  | .sessionInfo key => gives do
    let info ← record (← Registry.get key)
    Op.view fun s => recordJson s info
  | .reset key => gives <| quiet (Registry.reset key)
  | .resetAll => gives do
    let keys ← Registry.resetAll
    pure (textsJson (keys.mergeSort fun a b => a ≤ b))
  | .hold key name => gives <| hold key name
  | .release name how => gives <| release name how
  | .record key entry => gives <| quiet (Registry.note key entry)
  | .swept => gives <| Op.view fun s => textsJson s.swept
  | .readJournal folder => gives <| readJournal folder
  | .readMetadata folder => gives <| readMetadata folder
  | .writeMetadata folder text => gives <| writeMetadata folder text
  | .handleNew name startupTimeout => gives <| handleNew name startupTimeout
  | .handle name request => gives <| do askHandle (← named (·.handleNames) name) request
  | .remoteSubmit source stdin expected => gives <| do (← client).submit source stdin expected
  | .remotePoll token => gives <| remotePoll token
  | .remoteExecute source stdin expected maxWait cancel => gives <|
    remoteExecute source stdin expected maxWait cancel
  | .http method path body => .reply <$> Service.answer method path body
  | .lifespan own => gives <| lifespan own

/-- The response to a command, with those to the commands that came in between. -/
def respond (c : Command) (others : Interrupts) (s : Sandbox) : Response × Sandbox :=
  let (result, after) := perform c others { s with overheard := [] }
  let response : Response :=
    match result with
    | .ok r => r
    | .error f => .failure f
  let response := if after.overheard.isEmpty then response
    else .interleaved response after.overheard
  (response, { after with overheard := s.overheard })

end Conversation

namespace Sandbox

def overhear (r : Response) (s : Sandbox) : Sandbox := { s with overheard := s.overheard ++ [r] }

/-- What other clients do while a request is on its way; their own requests can meet with others in
turn, to a depth. -/
def interrupts : (depth : Nat) → Interrupts
  | 0 => fun _ s => s
  | depth + 1 => fun commands s =>
    commands.foldl (fun s c =>
      let (r, s) := Conversation.respond c (interrupts depth) s
      s.overhear r) s

/-- How many answers are written down; each of them is used up by one request. -/
def written (s : Sandbox) : Nat :=
  s.remoteScript.length + (s.byInputs.getD []).length +
    (s.scripts.flatMap (·.replies)).length + (s.children.flatMap (·.script.replies)).length

def give (s : Sandbox) (c : Command) : Response × Sandbox :=
  Conversation.respond c (interrupts (s.written + 1)) s

def giveAll (s : Sandbox) : List Command → List Response × Sandbox
  | [] => ([], s)
  | c :: cs =>
    let (r, s) := s.give c
    let (rs, s) := giveAll s cs
    (r :: rs, s)

end Sandbox

end Rerun
