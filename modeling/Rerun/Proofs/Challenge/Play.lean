import Rerun.Contexts
import Rerun.Proofs.Sandbox.Exchange

/-!
What a challenge stands for: one program that goes on living between the calls of its functions. It
is loaded once (`Play.load`), and each call runs among the names that the load and the calls before
have left (`Play.call`), whether these came back or raised. No session, process or message has a
part in that. The second half says how the messages of an interpreter tell of it.
-/

namespace Rerun.Challenge

open Program

/-- A call of a function, with JSON arguments and the seed that is in force when it is served. -/
structure Call where
  function : String
  args : List Json
  seed : Option Int
  finite : Json.anyNonFinite args = false

/-- A loaded program: the names that it and the calls so far have left, how many calls there were,
and what it has shown when it was loaded or called last. -/
structure Play where
  names : Names
  count : Nat
  shown : String

namespace Play

/-- Loads a program, if it runs to its end or leaves cleanly. -/
def load (seed : Option Int) (source : Source) : Option Play :=
  match Program.read source.text with
  | .error _ => none
  | .ok lines =>
    let (result, m) := runLines 1 lines { names := .initial, feed := .closed, seed }
    match result with
    | .ok () => some ⟨m.names, 0, transcript m.shown⟩
    | .error (.raised e) =>
      if e.isCleanExit then some ⟨m.names, 0, transcript m.shown⟩ else none
    | .error _ => none

/-- What the caller of a function gets: the JSON form of its value, or a failure that tells of what
it raised; a value that cannot be written counts as an error. Nothing is said of a function that
hangs, brings its process down, raises what no session reports or can tell of, or gives a number
that is not finite. -/
def answer (source : Source) (function : String) : Except Stop Value → Option (Except Failure Json)
  | .ok v =>
    if v.isWritable then if v.jsonable.hasNonFinite then none else some (.ok v.jsonable)
    else some (.error (.challengeCall function
      (errorLine "ValueError" Text.writeLimitMessage none source.prependLines)))
  | .error (.raised e) =>
    if e.isCleanExit then some (.ok .null)
    else if (e.cls = "SystemExit" || e.cls = "KeyboardInterrupt" || isBelow e.cls "Exception") &&
        e.told?.isSome then
      some (.error (.challengeCall function
        (errorLine e.cls e.message (some e.line) source.prependLines)))
    else none
  | .error _ => none

/-- Calls a function; one that is not defined changes nothing. -/
def call (source : Source) (p : Play) (c : Call) : Option (Except Failure Json × Play) :=
  match p.names.globals.lookup c.function with
  | some f@(.function ..) =>
    let (result, m) := callValue (callFunction maxDepth) f (c.args.map .ofJson)
      { names := p.names, feed := .closed, seed := c.seed }
    (answer source c.function result).map fun out =>
      (out, ⟨m.names, p.count + 1, transcript m.shown⟩)
  | _ =>
    let message := "function '" ++ c.function ++ "' is not defined"
    some (.error (.challengeCall c.function
      (errorLine "NameError" message none source.prependLines)), ⟨p.names, p.count + 1, ""⟩)

/-- Calls functions one after the other. -/
def run (source : Source) (p : Play) : List Call → Option (List (Except Failure Json) × Play)
  | [] => some ([], p)
  | c :: cs =>
    (p.call source c).bind fun first =>
      (run source first.2 cs).map fun rest => (first.1 :: rest.1, rest.2)

variable {source : Source} {p q : Play} {c : Call} {out : Except Failure Json}

end Play

/-! ### Messages -/

def loadBody (source : Source) : Json := .obj [("code", .str source.text), ("seed", .null)]

def callBody (function : String) (args : List Json) : Json :=
  .obj [("function", .str function), ("args", .arr args)]

theorem fitBody_loadBody (source : Source) :
    Shape.fitBody Serving.LoadRequest.shape (loadBody source) = .ok (loadBody source) := rfl

theorem fitBody_callBody (function : String) (args : List Json) :
    Shape.fitBody Serving.CallRequest.shape (callBody function args) =
      .ok (callBody function args) := by
  have hitems (n : Nat) : Shape.fitItems (fun _ j => .ok j) ["body", "args"] n args = .ok args := by
    induction args generalizing n with
    | nil => rfl
    | cons a args ih =>
        rw [Shape.fitItems, ih]
        rfl
  simp [Shape.fitBody, Serving.CallRequest.shape, callBody, Shape.fitAt, Shape.textField,
    Shape.fitFields, List.lookup_cons, hitems, Shape.both, Except.map]

/-- A reply to a call, with what it means for the caller and what it says was shown. -/
inductive Tells (source : Source) (function : String) :
    List (String × Json) → Except Failure Json → String → Prop where
  | value (v : Json) (shown : String) : Tells source function
      [("status", .str "ok"), ("value", v), ("stdout", .str shown), ("error", .null)] (.ok v) shown
  | error (type : String) (message : Json) (line : Option Int) (shown : String) :
    Tells source function
      [("status", .str "error"), ("stdout", .str shown),
        ("error", Serving.errorJson type message (Json.ofOption .int line))]
      (.error (.challengeCall function
        (errorLine type (Value.messageText message) line source.prependLines))) shown

/-- An interpreter among the names of a program that is loaded answers a call with what the call
comes to, and goes on among the names that the call leaves. -/
inductive Answers (source : Source) (p : Play) (c : Call) (out : Except Failure Json) (q : Play) :
    Prop where
  | undefined {fields : List (String × Json)} :
      Serving.call p.names c.seed ⟨c.function, c.args⟩ = none →
      Serving.undefinedAnswer c.function = .reply (.obj fields) → q.names = p.names →
      Tells source c.function fields out q.shown → Answers source p c out q
  | called {ending : Serving.Ending Value} {m : Machine} {fields : List (String × Json)} :
      Serving.call p.names c.seed ⟨c.function, c.args⟩ = some (ending, m) →
      Serving.callAnswer ending m = .reply (.obj fields) → q.names = m.names →
      Tells source c.function fields out q.shown → Answers source p c out q

end Rerun.Challenge
