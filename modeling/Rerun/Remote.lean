import Rerun.Interpreter
import Rerun.Value.Text

/-!
The remote judge: a program is submitted with its input, and polled until its status is final.
-/

namespace Rerun

structure RemoteStatus where
  id : Int
  description : String := ""
  deriving DecidableEq

structure RemoteResponse where
  token : Option String := none
  status : RemoteStatus
  stdout : Option String := none
  stderr : Option String := none
  compileOutput : Option String := none
  message : Option String := none
  time : Option String := none
  memory : Option Int := none
  deriving DecidableEq

namespace RemoteStatus

def shape : Shape := .record <|
  .field "id" .whole none <| Shape.textFieldOr "description" "" .done

def ofFields (j : Json) : RemoteStatus := ⟨(j.int?Of "id").getD 0, j.textOf "description"⟩

def toJson (s : RemoteStatus) : Json :=
  .obj [("id", .int s.id), ("description", .str s.description)]

def timeLimitExceeded : Int := 5

/-- How the program was ended, by the identity of its status. -/
def signal? (id : Int) : Option String :=
  [(7, "SIGSEGV"), (8, "SIGXFSZ"), (9, "SIGFPE"), (10, "SIGABRT"), (11, "NZEC"),
    (12, "Other")].lookup id

/-- The category of a status and its text. -/
def describe (id : Int) : String × String :=
  if id = 3 then ("success", "Accepted")
  else if id = 4 then ("error", "Wrong Answer")
  else if id = 5 then ("timeout", "Time Limit Exceeded")
  else if id = 6 then ("compilation-error", "Compilation Error")
  else
    match signal? id with
    | some name => ("runtime-error", "Runtime Error (" ++ name ++ ")")
    | none =>
      if id = 13 then ("error", "Internal Error")
      else if id = 14 then ("error", "Exec Format Error")
      else ("error", "Unknown Status")

/-- What a status means for the program; a wrong answer is still one that the program ended with. -/
def runStatus (id : Int) : RunStatus :=
  if id = 3 || id = 4 then .success
  else if id = timeLimitExceeded then .timeout
  else .runtimeError

end RemoteStatus

namespace RemoteResponse

def shape : Shape := .record <|
  Shape.optionalText "token" <| .field "status" RemoteStatus.shape none <|
  Shape.optionalText "stdout" <| Shape.optionalText "stderr" <|
  Shape.optionalText "compile_output" <| Shape.optionalText "message" <|
  Shape.optionalText "time" <| .field "memory" (.optional .whole) (some .null) .done

def ofFields (j : Json) : RemoteResponse where
  token := j.text?Of "token"
  status := .ofFields ((j.field? "status").getD .null)
  stdout := j.text?Of "stdout"
  stderr := j.text?Of "stderr"
  compileOutput := j.text?Of "compile_output"
  message := j.text?Of "message"
  time := j.text?Of "time"
  memory := j.int?Of "memory"

def toJson (r : RemoteResponse) : Json := .obj [
  ("token", Json.ofString? r.token), ("status", r.status.toJson),
  ("stdout", Json.ofString? r.stdout), ("stderr", Json.ofString? r.stderr),
  ("compile_output", Json.ofString? r.compileOutput), ("message", Json.ofString? r.message),
  ("time", Json.ofString? r.time), ("memory", Json.ofOption .int r.memory)]

def finished (r : RemoteResponse) : Bool := 2 < r.status.id

/-- The answer for a program whose status did not become final in time. -/
def outOfTime (token : String) : RemoteResponse where
  token := some token
  status := ⟨RemoteStatus.timeLimitExceeded, "Time Limit Exceeded"⟩
  stdout := some ""

end RemoteResponse

structure Submission where
  source : String
  stdin : Option String := none
  expected : Option String := none

namespace Submission

def shape : Shape := .record <|
  Shape.textField "source_code" <| .field "language_id" .whole (some (.int 71)) <|
  Shape.optionalText "stdin" <| Shape.optionalText "expected_output" <|
  .field "cpu_time_limit" .number (some (.int 10)) <|
  .field "memory_limit" .whole (some (.int 128000)) .done

/-- The body of a submission; what is absent is left out. -/
def toJson (s : Submission) : Json :=
  let optional (name : String) (value : Option String) : List (String × Json) :=
    value.toList.map fun v => (name, .str v)
  .obj ([("source_code", .str s.source), ("language_id", .int 71)] ++ optional "stdin" s.stdin ++
    optional "expected_output" s.expected ++
    [("cpu_time_limit", .int 10), ("memory_limit", .int 128000)])

end Submission

namespace RemoteClient

open Sandbox

/-- The scheme of an address, if it has one, and what comes after it. -/
def schemeOf (cs : List Char) : List Char × List Char :=
  let isSchemeChar (c : Char) : Bool := c.isAlphanum || c = '+' || c = '-' || c = '.'
  let scheme := cs.takeWhile isSchemeChar
  match scheme.head?.any Char.isAlpha, cs.dropWhile isSchemeChar with
  | true, ':' :: rest => (scheme, rest)
  | _, _ => ([], cs)

def isAuthorityEnd (c : Char) : Bool := c = '/' || c = '?' || c = '#'

/-- The host that an address names, with what stands before it and its port. -/
def hostOf (url : String) : String :=
  match (schemeOf (url.toList.dropWhile (·.toNat ≤ 32))).2 with
  | '/' :: '/' :: rest => String.ofList (rest.takeWhile fun c => !isAuthorityEnd c)
  | _ => ""

def defaultPort (scheme : List Char) : List Char :=
  if scheme = "http".toList then ":80".toList
  else if scheme = "https".toList then ":443".toList
  else []

/-- The scheme and the host of an address, in lower case and without a port that the scheme has by
itself, and what comes after them. -/
def splitOrigin (url : String) : List Char × List Char :=
  match schemeOf url.toList with
  | (scheme, '/' :: '/' :: rest) =>
    let scheme := scheme.map Binary64.lowerChar
    let authority := rest.takeWhile fun c => !isAuthorityEnd c
    let host := (authority.reverse.takeWhile (· ≠ '@')).reverse
    let user := authority.take (authority.length - host.length)
    let host := host.map Binary64.lowerChar
    let port := defaultPort scheme
    let host := if !port.isEmpty && port.isSuffixOf host then host.take (host.length - port.length)
      else host
    let colon := if scheme.isEmpty then [] else [':']
    (scheme ++ colon ++ "//".toList ++ user ++ host, rest.drop authority.length)
  | _ => ([], url.toList)

/-- Folds the steps `.` and `..` of a path away. -/
def foldSteps (path : List Char) : List Char :=
  let step (done : List (List Char)) (name : List Char) : List (List Char) :=
    if name = ['.'] then done
    else if name = ['.', '.'] then (if done = [[]] then done else done.dropLast)
    else done ++ [name]
  List.intercalate ['/'] ((Text.splitAt '/' path).foldl step [])

/-- A client for an address, with a key if the judge asks for one. -/
def create (baseUrl : String) (apiKey : Option String) (pollInterval : Binary64) :
    Except Failure RemoteClient :=
  if baseUrl = "" then .error (.badValue "Judge0 base URL is required")
  else
    let url := String.ofList (Text.dropEndWhile (· = '/') baseUrl.toList)
    let credentials := match apiKey with
      | some key => if key = "" then none else some (key, hostOf url)
      | none => none
    .ok { baseUrl := url, credentials, pollInterval }

def headers (c : RemoteClient) : List (String × String) :=
  ("Content-Type", "application/json") ::
    match c.credentials with
    | some (key, host) => [("X-RapidAPI-Key", key), ("X-RapidAPI-Host", host)]
    | none => []

def isPathChar (c : Char) : Bool :=
  let reserved := ['"', '#', '<', '>', '?', '\x60', '\x7b', '\x7d', '%']
  32 < c.toNat && c.toNat < 127 && !reserved.contains c

def codesOf (c : Char) : List Char :=
  (String.ofList [c]).toUTF8.toList.flatMap fun b =>
    '%' :: (Text.hexDigits 2 b.toNat).map Char.toUpper

/-- Text in the path of an address; codes that it holds already stay. -/
def encodePathChars : List Char → List Char
  | [] => []
  | '%' :: a :: b :: cs =>
    if (Text.hexValue? a).isSome && (Text.hexValue? b).isSome then
      '%' :: a :: b :: encodePathChars cs
    else codesOf '%' ++ encodePathChars (a :: b :: cs)
  | c :: cs => (if isPathChar c then [c] else codesOf c) ++ encodePathChars cs

/-- The address of a request: its path goes below the path of the client's address, and its query
takes the place of any other. -/
def requestUrl (base path query : String) : String :=
  let (origin, rest) := splitOrigin base
  let fragment := rest.dropWhile (· ≠ '#')
  let below := rest.takeWhile (· ≠ '#')
  let folder := below.takeWhile (· ≠ '?')
  let path := if below.contains '?' then (if folder.isEmpty then ['/'] else folder)
    else folder ++ path.toList.takeWhile fun c => c ≠ '?' && c ≠ '#'
  let path := if origin.isEmpty then path else foldSteps path
  String.ofList (origin ++ encodePathChars path ++ query.toList ++ fragment)

/-- The most characters that an address may have, and that its path may have. -/
def maxAddress : Nat := 65536

/-- Whether an address can be made of a path: it holds no control characters, and is not too long,
be it as it is or with the codes in it. -/
def isAddress (path : String) : Bool :=
  path.toList.all (fun c => 32 ≤ c.toNat && c.toNat ≠ 127) && path.length ≤ maxAddress &&
    (encodePathChars (path.toList.takeWhile fun c => c ≠ '?' && c ≠ '#')).length ≤ maxAddress

/-- The next thing that happens when the judge gets a request. -/
def nextScripted : Op Scripted := fun _ s =>
  match s.remoteScript with
  | r :: rest => (.ok r, { s with remoteScript := rest })
  | [] => (.ok { ended := some (.fault (.transport "script exhausted")) }, s)

/-- Refuses to go on with a client that was closed. -/
def ensureOpen (c : RemoteClient) : Op Unit := do
  if ← Op.view fun s => c.shared && s.remoteClosed then Op.fail (.other "RuntimeError")
  else pure ()

/-- Sends a request and reads its answer. -/
def request (c : RemoteClient) (method path query : String) (body : Json) : Op Json := do
  c.ensureOpen
  let url := requestUrl c.baseUrl path query
  Op.change fun s => { s with remoteRequests := s.remoteRequests ++
    [⟨method, url, body, c.credentials⟩] }
  let r ← nextScripted
  Op.change fun s => { s with clock := s.clock + r.took }
  Op.interleave r.during
  match r.ended with
  | none => Op.fail (.remoteUnreachable c.baseUrl "script exhausted")
  | some .interrupt => Op.fail .interrupted
  | some (.fault f) => Op.fail (.remoteUnreachable c.baseUrl f.message)
  | some (.answer status body) =>
    if Interpreter.isSuccess status then
      Op.rescue (Interpreter.readBody body) fun _ => Op.fail (.remoteNotJson method path)
    else Op.fail (.remoteStatus status method path)

def submit (c : RemoteClient) (source stdin : String) (expected : Option String) : Op Json := do
  let body := Submission.toJson ⟨source, if stdin = "" then none else some stdin, expected⟩
  let payload ← c.request "POST" "/submissions" "?base64_encoded=false&wait=false" body
  match payload with
  | .obj fields =>
    let token := (fields.lookup "token").getD .null
    if token.isFalsy then Op.fail .remoteNoToken else pure token
  | _ => Op.fail (.other "AttributeError")

/-- Asks for the status of a submission. -/
def poll (c : RemoteClient) (token : Json) : Op RemoteResponse := do
  let name := (Value.ofJson token).text
  let path := "/submissions/" ++ name
  if !isAddress path then Op.fail (.other "InvalidURL")
  else do
    let payload ← c.request "GET" path "?base64_encoded=false" .null
    match Shape.fit RemoteResponse.shape payload with
    | .ok j => pure (.ofFields j)
    | .error _ => Op.fail (.remotePayload name)

end RemoteClient

/-- What may cancel an execution. -/
inductive Cancel where
  | noEvent
  | at (time : CancelAt)
  /-- The run is abandoned. -/
  | run (index : Nat)

namespace Cancel

/-- When the event becomes set, as far as that is known at a moment: the moment itself for one that
is set. -/
def dueAt (c : Cancel) (s : Sandbox) : Option Int :=
  match c with
  | .noEvent | .at .noEvent | .at .never => none
  | .at (.at ms) => some (max ms s.clock)
  | .run i => if (s.runs[i]?.map (·.cancelled)).getD false then some s.clock else none

def isSet (c : Cancel) : Op Bool := Op.view fun s => c.dueAt s = some s.clock

/-- Waits for the event, at most for some seconds, and tells whether it is set. -/
def wait (c : Cancel) (seconds : Binary64) : Op Bool := fun _ s =>
  let stop := s.clock + seconds.toMillis
  match c.dueAt s with
  | some ms => if ms ≤ stop || ms = s.clock then (.ok true, { s with clock := ms })
    else (.ok false, { s with clock := stop })
  | none => (.ok false, { s with clock := stop })

end Cancel

namespace RemoteClient

open Sandbox

/-- How polling ends. -/
inductive Polled where
  | response (r : RemoteResponse)
  | cancelled
  | outOfTime
  /-- Polling went on for longer than answers are written down. -/
  | unfinished

/-- Polls until the status is final, the event is set or the deadline has come. -/
def pollUntil (c : RemoteClient) (token : Json) (deadline : Binary64) (cancel : Cancel) :
    (fuel : Nat) → Op Polled
  | 0 => pure .unfinished
  | fuel + 1 => do
    let t ← now
    if !(Binary64.ofMillis t).lt deadline then pure .outOfTime
    else if ← cancel.isSet then pure .cancelled
    else do
      let r ← c.poll token
      if r.finished then pure (.response r)
      else if ← cancel.wait c.pollInterval then pure .cancelled
      else pollUntil c token deadline cancel fuel

/-- Submits a program and waits for its end; nothing when the event was set first. -/
def execute (c : RemoteClient) (source stdin : String) (expected : Option String)
    (maxWait : Binary64) (cancel : Cancel) : Op (Option RemoteResponse) := do
  let token ← c.submit source stdin expected
  let t ← now
  let fuel ← Op.view fun s => s.remoteScript.length + 2
  match ← c.pollUntil token ((Binary64.ofMillis t).add maxWait) cancel fuel with
  | .response r => pure (some r)
  | .cancelled | .unfinished => pure none
  | .outOfTime =>
    match token with
    | .str token => pure (some (.outOfTime token))
    | _ => Op.fail (.invalid [⟨.notText, ["token"]⟩])

end RemoteClient

end Rerun
