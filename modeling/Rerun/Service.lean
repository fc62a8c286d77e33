import Rerun.Contexts

/-!
The HTTP service. What becomes of a program is always a good answer; only failures of the sandbox
itself are answered with an error status.
-/

namespace Rerun.Service

open Sandbox

/-! ### Addresses -/

/-- The bytes that a text with percent codes stands for. -/
def codedBytes : List Char → List UInt8
  | [] => []
  | '%' :: a :: b :: cs =>
    match Text.hexValue? a, Text.hexValue? b with
    | some x, some y => UInt8.ofNat (16 * x + y) :: codedBytes cs
    | _, _ => 37 :: codedBytes (a :: b :: cs)
  | c :: cs => (String.ofList [c]).toUTF8.toList ++ codedBytes cs

def decodeCodes (s : String) : String := Text.decode (codedBytes s.toList)

/-- One step along the names of an address: dots are folded away. -/
def foldDots (done : List String) (name : String) : List String :=
  if name = "." then done
  else if name = ".." then if done = [] || done = [""] then done else done.dropLast
  else done ++ [name]

def segments (path : String) : List String :=
  (Text.splitAt '/' path.toList).map String.ofList

/-- An address without its query, with a slash at its start and without dots. -/
def plainPath (address : String) : String :=
  let cs := address.toList.takeWhile fun c => c ≠ '#' && c ≠ '?'
  let path := String.ofList ('/' :: cs.dropWhile (· = '/'))
  String.intercalate "/" ((segments path).foldl foldDots [])

/-- The path that an address names. Codes are resolved when the address is read and once more when
it is matched. -/
def pathOf (address : String) : String := decodeCodes (decodeCodes (plainPath address))

/-! ### Routes -/

inductive Route where
  | health
  | submitRun
  | abandonRun (context : String)
  | grade
  | loadChallenge (id : String)
  | invokeChallenge (id : String)
  | closeChallenge (id : String)
  deriving DecidableEq

/-- Whether the last name of a path is a fixed one, after which a newline may stand. -/
def isLast (name given : String) : Bool := given = name || given = name ++ "\n"

/-- The methods that are allowed at a path, with their routes. -/
def routesAt (path : String) : List (String × Route) :=
  match segments path with
  | ["", name] =>
    if isLast "health" name then [("GET", .health)]
    else if isLast "runs" name then [("POST", .submitRun)]
    else if isLast "batch" name then [("POST", .grade)]
    else []
  | ["", "runs", context] => if context = "" then [] else [("DELETE", .abandonRun context)]
  | ["", "challenges", id] =>
    if id = "" then [] else [("POST", .loadChallenge id), ("DELETE", .closeChallenge id)]
  | ["", "challenges", id, name] =>
    if id ≠ "" && isLast "invoke" name then [("POST", .invokeChallenge id)] else []
  | _ => []

inductive Target where
  | route (r : Route)
  | wrongMethod
  | moved (path : String)
  | unknown

def withoutSlashes (path : String) : String :=
  String.ofList (Text.dropEndWhile (· = '/') path.toList)

/-- The target of a request; a path with slashes too many at its end is moved. -/
def target (method path : String) : Target :=
  match routesAt path with
  | [] =>
    if path ≠ withoutSlashes path && !(routesAt (withoutSlashes path)).isEmpty then
      .moved (withoutSlashes path)
    else .unknown
  | routes =>
    match routes.lookup method with
    | some r => .route r
    | none => .wrongMethod

/-- The target of an address, after at most `moves` moves. -/
def targetOf (method : String) : (moves : Nat) → String → Target
  | 0, _ => .unknown
  | moves + 1, address =>
    match target method (pathOf address) with
    | .moved path => targetOf method moves path
    | t => t

/-! ### Requests -/

structure RunRequest where
  source : Source
  prior : List Json
  newest : Option Json
  context : String

def RunRequest.shape : Shape := .record <|
  Shape.textField "source" <| .field "prior_inputs" (.list .text) (some (.arr [])) <|
  Shape.optionalText "new_input" <| Shape.textFieldOr "context_id" "default" <|
  Shape.textFieldOr "prepend" "" <| Shape.textFieldOr "postpend" "" .done

def RunRequest.ofFields (j : Json) : RunRequest where
  source := ⟨j.textOf "source", j.textOf "prepend", j.textOf "postpend"⟩
  prior := j.itemsOf "prior_inputs"
  newest := (j.text?Of "new_input").map .str
  context := j.textOf "context_id"

structure BatchRequest where
  source : String
  cases : List TestCase
  options : GradingOptions

def BatchRequest.shape : Shape := .record <|
  Shape.textField "source" <| .field "test_cases" (.list TestCase.shape) none <|
  .field "options" GradingOptions.shape (some GradingOptions.defaults) .done

def BatchRequest.ofFields (j : Json) : BatchRequest where
  source := j.textOf "source"
  cases := (j.itemsOf "test_cases").map .ofFields
  options := .ofFields ((j.field? "options").getD .null)

def loadShape : Shape := .record <| Shape.textField "source" .done

def invokeShape : Shape := .record <|
  Shape.textField "function" <| .field "args" (.list .any) (some (.arr [])) .done

/-- The value that the body of a request holds, fitted to the shape that its handler needs. -/
def fitRequest (shape : Shape) (body : Body) : Except (List Issue) Json :=
  match body with
  | .absent | .json .null => .error [⟨.missing, ["body"]⟩]
  | .json j => Shape.fitBody shape j
  | .text s =>
    if s = "" then .error [⟨.missing, ["body"]⟩]
    else
      match Json.readBody s with
      | .ok .null => .error [⟨.missing, ["body"]⟩]
      | .ok j => Shape.fitBody shape j
      | .error fault => .error [⟨.malformed, ["body", Text.decimal fault.place]⟩]

/-! ### Replies -/

def bodyText : ReplyBody → String
  | .json j => j.write
  | .text s => s
  | .issues all =>
    let issueJson (i : Issue) : Json := .obj [
      ("type", .str i.fault.name), ("loc", .arr (i.place.map .str))]
    (Json.obj [("detail", .arr (all.map issueJson))]).write

def detail (status : Nat) (text : String) : Reply :=
  ⟨status, .json (.obj [("detail", .str text)])⟩

def done : Reply := ⟨200, .json (.obj [("ok", .bool true)])⟩

def broken : Reply := ⟨500, .text "Internal Server Error"⟩

/-- A good answer; one with a number that is not finite cannot be sent. -/
def good (j : Json) : Reply := if j.hasNonFinite then broken else ⟨200, .json j⟩

def withBody (shape : Shape) (body : Body) (handle : Json → Op Reply) : Op Reply :=
  match fitRequest shape body with
  | .ok j => handle j
  | .error issues => pure ⟨422, .issues issues⟩

/-- The failures of the sandbox, as they are answered. -/
def reporting (x : Op Reply) : Op Reply :=
  Op.rescue x fun e =>
    if e.isSandbox then pure (detail e.kind.httpStatus e.message) else Op.fail e

/-- The values that a grading refuses, as they are answered. -/
def reportingValues (x : Op Reply) : Op Reply :=
  Op.rescue x fun e => if e.isBadValue then pure (detail 400 e.message) else Op.fail e

/-- A failure that nothing else answers. -/
def guarded (x : Op Reply) : Op Reply :=
  Op.rescue x fun e => if e.kind = .interrupted then Op.fail e else pure broken

def submitRun (body : Body) : Op Reply :=
  withBody RunRequest.shape body fun j => reporting do
    let r := RunRequest.ofFields j
    let o ← Contexts.submit r.context r.source r.prior r.newest
    pure (good o.toJson)

def grade (body : Body) : Op Reply :=
  withBody BatchRequest.shape body fun j => reportingValues do
    let r := BatchRequest.ofFields j
    let verdicts ← Contexts.grade r.source r.cases r.options
    pure (good (summaryJson verdicts))

def loadChallenge (id : String) (body : Body) : Op Reply :=
  withBody loadShape body fun j => reporting do
    let i ← Contexts.challengeOf id
    let stdout ← Challenge.load Contexts.onSweep i { code := j.textOf "source" }
    pure (good (.obj [("ok", .bool true), ("stdout", stdout)]))

def invokeChallenge (id : String) (body : Body) : Op Reply :=
  withBody invokeShape body fun j => do
    let i ← Contexts.challengeOf id
    reporting do
      let value ← Challenge.invoke i (j.textOf "function") (j.itemsOf "args")
      let c ← challenge i
      pure (good (.obj [("value", value), ("stdout", c.lastStdout),
        ("invocations", .int c.invocations)]))

def handle (body : Body) : Route → Op Reply
  | .health => pure done
  | .submitRun => submitRun body
  | .abandonRun context => do
    Contexts.abandon context
    pure done
  | .grade => grade body
  | .loadChallenge id => loadChallenge id body
  | .invokeChallenge id => invokeChallenge id body
  | .closeChallenge id => do
    Contexts.closeChallenge id
    pure done

def answer (method address : String) (body : Body) : Op Reply :=
  match targetOf (method.map Char.toUpper) 20 address with
  | .route r => guarded (handle body r)
  | .wrongMethod => pure (detail 405 "Method Not Allowed")
  | .unknown | .moved _ => pure (detail 404 "Not Found")

end Rerun.Service
