import Rerun.Execution

/-!
What an interpreter is asked in an execution, and what becomes of its answer. The outcome of an
execution depends on the program, the values and the seed, as long as the interpreter itself answers
(`Request.comesTo`).
-/

namespace Rerun

open Program

/-! ### Messages as text -/

theorem Binary64.text_ne_empty (x : Binary64) : x.text ≠ "" := by
  have hdigits (d : Decimal) : d.digits ≠ [] := Nat.toDigits_ne_nil
  have hplaced (ds : List Char) (hds : ds ≠ []) (place : Int) : pointAt full ds place ≠ [] := by
    unfold pointAt
    split
    · exact nofun
    · split <;> simp [hds]
  have hwritten (d : Decimal) : full.write d ≠ [] := by
    unfold Layout.write
    dsimp only
    split
    · exact hplaced _ (hdigits d) _
    · split
      · exact absurd ‹_› (hdigits d)
      · exact nofun
      · exact nofun
  cases x with
  | nan => exact by decide
  | infinite negative => cases negative <;> exact by decide
  | finite negative m e =>
      refine mt String.ofList_eq_empty_iff.mp ?_
      exact List.append_ne_nil_of_right_ne_nil _ (hwritten _)

theorem Text.decimal_ne_empty (n : Int) : decimal n ≠ "" := by
  cases n with
  | ofNat n => exact mt String.ofList_eq_empty_iff.mp Nat.toDigits_ne_nil
  | negSucc n => exact mt String.ofList_eq_empty_iff.mp nofun

theorem Value.messageText_eq_empty_iff {j : Json} : messageText j = "" ↔ j.isFalsy = true := by
  unfold messageText
  split
  · exact iff_of_true rfl ‹_›
  · rename_i hj
    refine iff_of_false ?_ hj
    cases j with
    | null => exact absurd rfl hj
    | bool b => cases b <;> decide
    | int n => exact Text.decimal_ne_empty n
    | float x => exact x.text_ne_empty
    | str s => simpa [Json.isFalsy, ofJson, text] using hj
    | arr js => simp [ofJson, text, shown, shownIn]
    | obj fields => simp [ofJson, text, shown, shownIn]

theorem Json.anyNonFinite_texts (texts : List String) :
    Json.anyNonFinite (texts.map .str) = false := by
  induction texts with
  | nil => rfl
  | cons text texts ih => simpa [Json.anyNonFinite, Json.hasNonFinite] using ih

theorem Shape.fitAt_texts (anyFields : Bool) (place : List String) (texts : List String) :
    fitAt anyFields (.list .text) place (.arr (texts.map .str)) = .ok (.arr (texts.map .str)) := by
  have hitems (n : Nat) : fitItems (fitAt anyFields .text) place n (texts.map .str) =
      .ok (texts.map .str) := by
    induction texts generalizing n with
    | nil => rfl
    | cons text texts ih =>
        rw [List.map_cons, fitItems, ih]
        rfl
  rw [fitAt, hitems]
  rfl

namespace Serving

theorem hasNonFinite_errorJson_told (e : Exn) (line : Int) :
    (errorJson e.cls e.told (.int line)).hasNonFinite = false := by
  simp [errorJson, Json.hasNonFinite, Json.anyNonFiniteField, e.hasNonFinite_told]

theorem runAnswer_failed (e : Exn) (m : Machine) : runAnswer (.failed e) m = .reply (.obj [
    ("status", .str "error"), ("prompt", .null), ("error", errorJson e.cls e.told (.int e.line)),
    ("stdout", .str (transcript m.shown)), ("stderr", .str m.errors),
    ("consumed", .int m.feed.taken)]) := by
  simp [runAnswer, Answer.ofReply, statusName, promptOf, errorOf, Json.hasNonFinite,
    Json.anyNonFiniteField, hasNonFinite_errorJson_told]

theorem loadAnswer_failed (e : Exn) (m : Machine) : loadAnswer (.failed e) m = .reply (.obj [
    ("status", .str "error"), ("stdout", .str (transcript m.shown)), ("stderr", .str m.errors),
    ("error", errorJson e.cls e.told (.int e.line))]) := by
  simp [loadAnswer, Answer.ofReply, statusName, errorOf, Json.hasNonFinite, Json.anyNonFiniteField,
    hasNonFinite_errorJson_told]

theorem callAnswer_failed (e : Exn) (m : Machine) : callAnswer (.failed e) m = .reply (.obj [
    ("status", .str "error"), ("stdout", .str (transcript m.shown)),
    ("error", errorJson e.cls e.told (.int e.line))]) := by
  simp [callAnswer, Answer.ofReply, errorOf, Json.hasNonFinite, Json.anyNonFiniteField,
    hasNonFinite_errorJson_told]

theorem callAnswer_finished {v : Value} (hwritable : v.isWritable = true)
    (hfinite : v.jsonable.hasNonFinite = false) (m : Machine) :
    callAnswer (.finished v) m = .reply (.obj [("status", .str "ok"), ("value", v.jsonable),
      ("stdout", .str (transcript m.shown)), ("error", .null)]) := by
  simp [callAnswer, hwritable, Answer.ofReply, Json.hasNonFinite, Json.anyNonFiniteField, hfinite]

/-- A value that cannot be written is told of as an error without a line. -/
theorem callAnswer_unwritable {v : Value} (h : v.isWritable = false) (m : Machine) :
    callAnswer (.finished v) m = .reply (.obj [("status", .str "error"),
      ("stdout", .str (transcript m.shown)),
      ("error", errorJson "ValueError" (.str Text.writeLimitMessage) .null)]) := by
  simp [callAnswer, h, Answer.ofReply, errorJson, Json.hasNonFinite, Json.anyNonFiniteField]

end Serving

namespace Execution.Request

def asked (r : Request) : Serving.RunRequest where
  code := r.source.text
  inputs := r.values
  seed := r.seed
  mode := r.mode.name
  echoInputs := r.echo

theorem hasNonFinite_body (r : Request) : r.body.hasNonFinite = false := by
  cases hseed : r.seed <;>
    simp [body, Json.hasNonFinite, Json.anyNonFiniteField, Json.ofOption, hseed,
      Json.anyNonFinite_texts]

theorem fitBody_body (r : Request) :
    Shape.fitBody Serving.RunRequest.shape r.body = .ok r.body := by
  rw [Shape.fitBody, Serving.RunRequest.shape, body, Shape.fitAt]
  simp [Shape.textField, Shape.textFieldOr, Shape.fitFields, List.lookup_cons, Shape.fitAt_texts]
  cases hseed : r.seed <;>
    simp [Shape.fitAt, Shape.both, Shape.placed, Shape.fitWhole, Shape.fitFlag, Json.ofOption,
      Except.map]

theorem ofFields_body (r : Request) : Serving.RunRequest.ofFields r.body = r.asked := by
  have htexts : r.values.filterMap (Json.str? ∘ Json.str) = r.values := List.filterMap_some
  cases hseed : r.seed <;>
    simp [body, asked, Serving.RunRequest.ofFields, Json.textOf, Json.itemsOf, Json.int?Of,
      Json.flagOf, Json.field?, Json.str?, Json.int?, Json.items, Json.ofOption, hseed, htexts,
      List.lookup_cons]

def raised (r : Request) (m : Machine) (type message : String) (line : Nat) (timeMs : Int) :
    Outcome :=
  let error := "Line " ++ Text.decimal (codeLine line r.source.prependLines) ++ ": " ++
    if message = "" then type else type ++ ": " ++ message
  { status := .runtimeError, stdout := transcript m.shown, stderr := m.errors ++ error ++ "\n"
    error := some error, timeMs, runId := r.runId }

def refused (r : Request) (timeMs : Int) : Outcome :=
  lostOutcome r (.answeredStatus 500 "/run") timeMs

/-- What a program has shown of which nothing but that is left. -/
def remains (m : Machine) : String := Text.foldNewlines (transcript m.shown)

/-- The outcome of a program that ended in a way, on an interpreter that answers. -/
def outcomeAt (r : Request) (ending : Serving.Ending Unit) (m : Machine) (timeMs : Int) : Outcome :=
  match ending with
  | .finished () =>
    { status := .success, stdout := transcript m.shown, stderr := m.errors, timeMs
      runId := r.runId }
  | .suspended prompt =>
    { status := .awaitingInput, stdout := transcript m.shown, stderr := m.errors
      pendingPrompt := some prompt, timeMs, runId := r.runId }
  | .failed e => raised r m e.cls e.message e.line timeMs
  | .malformed line => raised r m "SyntaxError" "unmatched ')'" line timeMs
  | .unreported => refused r timeMs
  | .hung => lostOutcome r (.exceeded r.timeout (remains m)) timeMs
  | .crashed =>
    lostOutcome r (.stoppedResponding "Server disconnected without sending a response." (remains m))
      timeMs

/-- What a request gives for a program that ended in a way, on an interpreter that answers. -/
def saidAt (r : Request) (ending : Serving.Ending Unit) (m : Machine) : Except Failure Json :=
  match Serving.runAnswer ending m with
  | .reply body => .ok body
  | .refused status => .error (.answeredStatus status "/run")
  | .hung => .error (.exceeded r.timeout (remains m))
  | .crashed => .error
    (.stoppedResponding "Server disconnected without sending a response." (remains m))

/-- Why a request gets no reply whose program has no folder to write to. -/
def homelessness (setup : Setup) : Failure :=
  if setup.networked then .answeredStatus 500 "/run" else .other "FileNotFoundError"

/-- What a request gives for a program that ended in a way, if the folder is there to write to. -/
def saidIn (r : Request) (setup : Setup) (here : Bool) (ending : Serving.Ending Unit)
    (m : Machine) :
    Except Failure Json :=
  if here then r.saidAt ending m else .error (homelessness setup)

/-- What an execution gives for a program that ended in a way, if the folder is there to write
to. -/
def resultIn (r : Request) (setup : Setup) (here : Bool) (ending : Serving.Ending Unit)
    (m : Machine) (timeMs : Int) : Except Failure Outcome :=
  if here then .ok (r.outcomeAt ending m timeMs)
  else if setup.networked then .ok (r.refused timeMs) else .error (.other "FileNotFoundError")

/-- How the program of a request ends, and the machine that it leaves. -/
def ended (r : Request) : Serving.Ending Unit × Machine := Serving.attempt r.seed r.asked

/-- How the program of a request ends where a seed is in force, unless the request brings one. -/
def endedAt (r : Request) (seed : Option Int) : Serving.Ending Unit × Machine :=
  Serving.attempt (r.seed.or seed) r.asked

theorem endedAt_of_seed {r : Request} {n : Int} (h : r.seed = some n) (seed : Option Int) :
    r.endedAt seed = r.ended := by
  rw [endedAt, ended, h]
  rfl

/-- What an execution comes to on an interpreter that answers. -/
def comesTo (r : Request) (timeMs : Int) : Outcome := r.outcomeAt r.ended.1 r.ended.2 timeMs

/-- An error that is told of with its type, its message and perhaps its line is shown as one
line. -/
theorem describe_eq_errorLine (type : String) (message : Json) (line : Option Int)
    (prependLines : Nat) :
    describe [("type", .str type), ("message", message), ("lineno", Json.ofOption .int line)]
      prependLines = .ok (.str (errorLine type (Value.messageText message) line prependLines)) := by
  have hstr (s : String) : asText (.str s) = s := rfl
  cases hmessage : message.isFalsy with
  | true =>
      have htext : Value.messageText message = "" := Value.messageText_eq_empty_iff.mpr hmessage
      cases line <;>
        simp [describe, List.lookup_cons, Json.ofOption, lineText, hstr, hmessage, htext, errorLine,
          errorHead, bind, Except.bind, pure, Except.pure]
  | false =>
      have htext : Value.messageText message = asText message := by
        rw [Value.messageText, hmessage]
        rfl
      have hne : asText message ≠ "" := by
        rw [← htext, ne_eq, Value.messageText_eq_empty_iff, hmessage]
        exact Bool.false_ne_true
      cases line <;>
        simp [describe, List.lookup_cons, Json.ofOption, lineText, hstr, hmessage, htext, hne,
          errorLine, errorHead, bind, Except.bind, pure, Except.pure]

theorem outcomeOf_raised (r : Request) (m : Machine) (type : String) (message : Json) (line : Nat)
    (timeMs : Int) : outcomeOf r [
      ("status", .str "error"), ("prompt", .null),
      ("error", Serving.errorJson type message (.int line)), ("stdout", .str (transcript m.shown)),
      ("stderr", .str m.errors), ("consumed", .int m.feed.taken)] timeMs =
      .ok (r.raised m type (Value.messageText message) line timeMs) := by
  have hdescribe := describe_eq_errorLine type message (some line) r.source.prependLines
  simp only [Json.ofOption, errorLine, errorHead] at hdescribe
  simp [outcomeOf, Serving.errorJson, List.lookup_cons, Json.str?, Json.isFalsy, hdescribe, raised,
    checked, textIssue, stated, asText, Value.ofJson, Value.text, bind, Except.bind]

section

variable {setup : Setup} (r : Request) (ending : Serving.Ending Unit) (m : Machine)

theorem resultIn_eq_ok {here : Bool} (h : here = true ∨ setup.networked = true) (timeMs : Int) :
    r.resultIn setup here ending m timeMs =
      .ok (if here then r.outcomeAt ending m timeMs else r.refused timeMs) := by
  cases here with
  | true => rfl
  | false => simp [resultIn, h.resolve_left Bool.false_ne_true]

theorem saidIn_refused (h : setup.networked = true) :
    r.saidIn setup false ending m = .error (.answeredStatus 500 "/run") := by
  simp [saidIn, homelessness, h]

theorem saidIn_failed (h : setup.networked = false) :
    r.saidIn setup false ending m = .error (.other "FileNotFoundError") := by
  simp [saidIn, homelessness, h]

theorem resultIn_refused (h : setup.networked = true) (timeMs : Int) :
    r.resultIn setup false ending m timeMs = .ok (r.refused timeMs) := by
  simp [resultIn, h]

theorem resultIn_failed (h : setup.networked = false) (timeMs : Int) :
    r.resultIn setup false ending m timeMs = .error (.other "FileNotFoundError") := by
  simp [resultIn, h]

end

/-- What a request gives comes to an outcome, which depends on the time only in what it says of the
time. -/
inductive Comes (r : Request) (o : Int → Outcome) : Except Failure Json → Prop where
  | reply {fields : List (String × Json)} {n : Int} : consumedOf fields = .ok n →
      (∀ ms, outcomeOf r fields ms = .ok (o ms)) → Comes r o (.ok (.obj fields))
  | lost {e : Failure} : e.losesInterpreter = true → (∀ ms, lostOutcome r e ms = o ms) →
      Comes r o (.error e)

theorem comes_refused (r : Request) : Comes r r.refused (.error (.answeredStatus 500 "/run")) :=
  .lost rfl fun _ => rfl

/-- What a request gives decides what the execution gives: an outcome, or a failure that does not
lose the interpreter. -/
inductive Leaves (r : Request) (o : Int → Except Failure Outcome) : Except Failure Json → Prop where
  | comes {o' : Int → Outcome} {out : Except Failure Json} : Comes r o' out →
      (∀ ms, o ms = .ok (o' ms)) → Leaves r o out
  | fails {e : Failure} : e.losesInterpreter = false → (∀ ms, o ms = .error e) →
      Leaves r o (.error e)

theorem comes_saidAt {r : Request} {ending : Serving.Ending Unit}
    (hmode : ∀ prompt, ending = .suspended prompt → r.mode = .interactive) (m : Machine) :
    Comes r (r.outcomeAt ending m) (r.saidAt ending m) := by
  -- The first four endings are told of in a reply, the last three lose the interpreter.
  cases ending with
  | finished _ =>
      refine .reply (n := m.feed.taken) rfl fun ms => ?_
      simp [outcomeOf, outcomeAt, Serving.statusName, checked, textIssue, List.lookup_cons,
        Json.str?]
  | suspended prompt =>
      have hmode := hmode prompt rfl
      refine .reply (n := m.feed.taken) rfl fun ms => ?_
      by_cases hprompt : prompt = "" <;>
        simp [outcomeOf, outcomeAt, Serving.statusName, Serving.promptOf, checked, textIssue,
          List.lookup_cons, Json.str?, Json.isFalsy, hmode, hprompt]
  | failed e =>
      rw [saidAt, Serving.runAnswer_failed]
      exact .reply (n := m.feed.taken) rfl (outcomeOf_raised r m _ _ _)
  | malformed line =>
      refine .reply (n := m.feed.taken) rfl fun ms => ?_
      rw [outcomeAt, ← Value.messageText_str "unmatched ')'"]
      exact outcomeOf_raised r m _ _ _ ms
  | unreported => exact .lost rfl fun _ => rfl
  | hung => exact .lost rfl fun _ => rfl
  | crashed => exact .lost rfl fun _ => rfl

/-- So it is for a program that ended in a way, whether or not the folder is there to write to. -/
theorem leaves_saidIn {r : Request} {ending : Serving.Ending Unit}
    (hmode : ∀ prompt, ending = .suspended prompt → r.mode = .interactive) (setup : Setup)
    (here : Bool) (m : Machine) :
    Leaves r (r.resultIn setup here ending m) (r.saidIn setup here ending m) := by
  cases here with
  | true => exact .comes (comes_saidAt hmode m) fun _ => rfl
  | false =>
      cases hnet : setup.networked with
      | true =>
          rw [saidIn_refused r ending m hnet]
          exact .comes r.comes_refused (resultIn_refused r ending m hnet)
      | false =>
          rw [saidIn_failed r ending m hnet]
          exact .fails rfl (resultIn_failed r ending m hnet)

end Execution.Request

namespace Execution.Request

variable {r r' : Request}

end Execution.Request

end Rerun
