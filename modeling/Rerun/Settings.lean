import Rerun.EnvFile
import Rerun.Remote

/-!
Settings, which are read from an environment file and from the environment of the process; the file
comes first. An empty text is the usual value, except where it has to be a number with a point.
-/

namespace Rerun

/-- What happens when no interpreter can be started. -/
inductive Fallback where
  | none
  | judge
  deriving DecidableEq

namespace Fallback

def name : Fallback → String
  | .none => "NONE"
  | .judge => "JUDGE0"

def all : List Fallback := [.none, .judge]

def ofName? (s : String) : Option Fallback := all.find? (·.name = s)

end Fallback

structure Settings where
  sessionRoot : Path := Path.work.resolve "sessions"
  runTimeoutMs : Int := 10000
  batchTimeoutMs : Int := 15000
  challengeTimeoutMs : Int := 5000
  /-- Seconds. -/
  startupTimeout : Binary64 := .ofInt 10
  /-- Seconds. -/
  idleTimeout : Int := 2700
  keepLogs : Bool := false
  workers : Int := 1
  fallback : Fallback := .none
  judgeUrl : Option String := none
  judgeKey : Option String := none
  remoteMaxWaitMs : Int := 10000
  pollIntervalMs : Int := 1000

namespace Settings

/-! ### Reading -/

def names : List String := ["SESSIONS_ROOT", "RUN_TIMEOUT_MS", "BATCH_TIMEOUT_MS",
  "CHALLENGE_TIMEOUT_MS", "STARTUP_TIMEOUT_S", "IDLE_TIMEOUT_S", "SESSION_LOGS", "BATCH_WORKERS",
  "FALLBACK", "JUDGE0_API_URL", "JUDGE0_RAPIDAPI_KEY", "REMOTE_MAX_WAIT_MS",
  "REMOTE_POLL_INTERVAL_MS"]

abbrev Source := String → Option String

def source (file env : List (String × String)) : Source := fun name =>
  (file.lookup name).or (env.lookup name)

/-- A text that is not blank. -/
def given (s : Source) (name : String) : Option String :=
  (s name).filter fun raw => Text.strip raw ≠ ""

def nonempty (s : Source) (name : String) : Option String := (s name).filter (· ≠ "")

def whole (s : Source) (name : String) (usual : Int) : Except Failure Int :=
  match given s name with
  | none => .ok usual
  | some raw =>
    match Text.readInt (Text.strip raw) with
    | .ok n => .ok n
    | .error _ =>
      .error (.badValue (name ++ " must be an integer (got: " ++ Text.quoted raw ++ ")"))

/-- A number that may have a point; a blank text is none. -/
def number (s : Source) (name usual : String) : Except Failure Binary64 :=
  let raw := (s name).getD usual
  match Binary64.read? raw with
  | some x => .ok x
  | none => .error (.badValue ("could not convert string to float: " ++ Text.quoted raw))

def fallbackOf (s : Source) : Except Failure Fallback :=
  match given s "FALLBACK" with
  | none => .ok .none
  | some raw =>
    match Fallback.ofName? ((Text.strip raw).map Char.toUpper) with
    | some f => .ok f
    | none => .error (.badValue ("FALLBACK must be one of: " ++
        String.intercalate ", " (Fallback.all.map Fallback.name) ++
        " (got: " ++ Text.quoted raw ++ ")"))

/-- Words that switch something on. -/
def isOn (raw : String) : Bool :=
  ["1", "true", "yes", "on"].contains ((Text.strip raw).map Char.toLower)

def workersOf (s : Source) : Except Failure Int := do
  let n ← whole s "BATCH_WORKERS" 1
  if n < 1 then .error (.badValue "BATCH_WORKERS must be at least 1") else .ok n

/-- The address of the judge, which has to be known when the judge is used. -/
def judgeUrlOf (s : Source) (fallback : Fallback) : Except Failure (Option String) :=
  let url := nonempty s "JUDGE0_API_URL"
  if fallback = .judge && url.isNone then
    .error (.badValue "JUDGE0_API_URL is required when FALLBACK=JUDGE0")
  else .ok url

/-- The folder of all sessions. No path holds the null character. -/
def rootOf (s : Source) : Except Failure Path :=
  let text := (s "SESSIONS_ROOT").getD "./sessions"
  if text.toList.contains '\x00' then .error (.badValue "embedded null byte")
  else .ok (Path.work.resolve text)

/-- Reads the settings; of several faults the first one counts. -/
def read (s : Source) : Except Failure Settings := do
  let sessionRoot ← rootOf s
  let fallback ← fallbackOf s
  let judgeUrl ← judgeUrlOf s fallback
  let workers ← workersOf s
  let runTimeoutMs ← whole s "RUN_TIMEOUT_MS" 10000
  let batchTimeoutMs ← whole s "BATCH_TIMEOUT_MS" 15000
  let challengeTimeoutMs ← whole s "CHALLENGE_TIMEOUT_MS" 5000
  let startupTimeout ← number s "STARTUP_TIMEOUT_S" "10"
  let idleTimeout ← whole s "IDLE_TIMEOUT_S" 2700
  let remoteMaxWaitMs ← whole s "REMOTE_MAX_WAIT_MS" 10000
  let pollIntervalMs ← whole s "REMOTE_POLL_INTERVAL_MS" 1000
  .ok {
    sessionRoot, runTimeoutMs, batchTimeoutMs, challengeTimeoutMs, startupTimeout, idleTimeout
    keepLogs := isOn ((s "SESSION_LOGS").getD "false")
    workers, fallback, judgeUrl
    judgeKey := nonempty s "JUDGE0_RAPIDAPI_KEY"
    remoteMaxWaitMs, pollIntervalMs }

/-- Settings from an environment and, if there is one, the text of an environment file. -/
def ofEnvironment (env : List (String × String)) (file : Option String) :
    Except Failure Settings :=
  read (source ((file.map (EnvFile.values .file env)).getD []) env)

/-! ### Derived values -/

def sessionFolder (s : Settings) (key : String) : Path := s.sessionRoot.join key

/-- The client of the judge, when the judge is used. -/
def remote (s : Settings) : Except Failure (Option RemoteClient) := do
  match s.fallback with
  | .none => .ok none
  | .judge =>
    let interval ← secondsOf s.pollIntervalMs
    let client ← RemoteClient.create (s.judgeUrl.getD "") s.judgeKey interval
    .ok (some { client with shared := true })

/-- How a sandbox with these settings is set up. -/
def setup (s : Settings) : Except Failure Setup := do
  let remote ← s.remote
  let remoteMaxWait ← secondsOf s.remoteMaxWaitMs
  let batchTimeout ← secondsOf s.batchTimeoutMs
  .ok {
    sessionRoot := s.sessionRoot
    startupTimeout := s.startupTimeout
    workers := s.workers.toNat
    idleTimeout := .ofInt s.idleTimeout
    keepLogs := s.keepLogs
    runTimeoutMs := s.runTimeoutMs
    batchTimeout
    challengeTimeoutMs := s.challengeTimeoutMs
    remote
    remoteMaxWait }

/-- The settings with what is derived from them. -/
def toJson (s : Settings) (key : String) : Except Failure Json := do
  let run ← secondsOf s.runTimeoutMs
  let batch ← secondsOf s.batchTimeoutMs
  let challenge ← secondsOf s.challengeTimeoutMs
  .ok <| .obj [
    ("sessions_root", .str s.sessionRoot.text), ("run_timeout_ms", .int s.runTimeoutMs),
    ("batch_timeout_ms", .int s.batchTimeoutMs),
    ("challenge_timeout_ms", .int s.challengeTimeoutMs),
    ("startup_timeout_s", .float s.startupTimeout), ("idle_timeout_s", .int s.idleTimeout),
    ("session_logs", .bool s.keepLogs), ("batch_workers", .int s.workers),
    ("fallback", .str s.fallback.name), ("judge0_api_url", Json.ofString? s.judgeUrl),
    ("judge0_rapidapi_key", Json.ofString? s.judgeKey),
    ("remote_max_wait_ms", .int s.remoteMaxWaitMs),
    ("remote_poll_interval_ms", .int s.pollIntervalMs),
    ("run_timeout_s", .float run), ("batch_timeout_s", .float batch),
    ("challenge_timeout_s", .float challenge),
    ("uses_remote_fallback", .bool (s.fallback = .judge)),
    ("session_dir", .str (s.sessionFolder key).text)]

end Settings

end Rerun
