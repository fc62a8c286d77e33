import Rerun.Proofs.Challenge.Returns
import Rerun.Proofs.Challenge.Transparency
import Rerun.Proofs.Session.Wordings

/-!
What a challenge says when it fails. A program that cannot be loaded, or a function that cannot be
called, is told of by the error with which it ends, after a fixed head; and so is the loss of its
interpreter, by what that says itself (`Challenge.load_complains`, `Challenge.invoke_complains`).
-/

namespace Rerun

open Sandbox Op Program

/-! ### Programs that nobody can answer -/

namespace Serving

variable {α : Type}

/-- A computation is not left by a request for a value when nobody can answer. -/
theorem ne_requested {x : Run α} (hasking : Asking x) (honward : Onward True x) {m : Machine}
    (hbatch : m.feed.batch = true) (prompt : String) : (x m).1 ≠ .error (.requested prompt) := by
  intro h
  have hleads := honward.leads m fun _ _ _ => trivial
  exact Bool.false_ne_true ((hasking m prompt h).1.symm.trans (hleads.feed.batch.trans hbatch))

theorem Ending.requested_of {clean : α} {r : Except Stop α} {prompt : String}
    (h : Ending.of clean r = .suspended prompt) : r = .error (.requested prompt) := by
  rcases r with (e | p | _ | _) | a
  · simp only [Ending.of, Ending.ofStop] at h
    split at h
    · cases h
    · split at h <;> cases h
  · rw [Ending.suspended.inj h]
  all_goals cases h

theorem load_ne_suspended (seed : Option Int) (r : LoadRequest) (prompt : String) :
    (load seed r).1 ≠ .suspended prompt := by
  unfold load runProgram
  split
  · exact nofun
  · rename_i ls _
    exact fun h => ne_requested (Asking.closed.runLines 1 ls fun _ => trivial)
      ((Onward.closed True).runLines 1 ls fun _ => trivial) rfl prompt (Ending.requested_of h)

theorem call_ne_suspended {names : Names} {seed : Option Int} {r : CallRequest} {m : Machine}
    {ending : Ending Value} (h : call names seed r = some (ending, m)) (prompt : String) :
    ending ≠ .suspended prompt := by
  unfold call at h
  split at h
  · rename_i name index _
    obtain ⟨rfl, -⟩ := Prod.mk.inj (Option.some.inj h)
    have hne := ne_requested (m := machine names .closed seed)
      (Asking.closed.callValue (.function name index) (r.args.map Value.ofJson))
      ((Onward.closed True).callValue _ _) rfl prompt
    exact fun h => hne (Ending.requested_of h)
  · exact absurd h nofun

end Serving

namespace Challenge

variable {source : Source} {function : String} {args : List Json} {others : Interrupts} {i : Nat}
  {s t : Sandbox} {e : Failure} {E : String → String → Prop}

/-! ### Replies -/

/-- A reply of a program that is well, or that tells of an error as `E` has it. -/
inductive Reports (E : String → String → Prop) : Json → Prop where
  | well {fields : List (String × Json)} : fields.lookup "status" = some (.str "ok") →
    Reports E (.obj fields)
  | error {fields : List (String × Json)} {type : String} {message : Json} (line : Option Int) :
    fields.lookup "error" = some (Serving.errorJson type message (Json.ofOption .int line)) →
    Text.IsLine type → E type (Value.messageText message) → Reports E (.obj fields)

/-- The errors with which a program ends when it is loaded, whatever seed is in force. -/
def FailsToLoad (source : Source) (type message : String) : Prop :=
  ∃ seed, (Serving.load seed { code := source.text }).1.error? = some (type, message)

/-- The errors with which a call of a function ends among the names of some program. -/
inductive FailsToCall (function : String) (args : List Json) : String → String → Prop where
  | undefined {names : Names} {seed : Option Int} :
      Serving.call names seed ⟨function, args⟩ = none →
    FailsToCall function args "NameError" ("function '" ++ function ++ "' is not defined")
  | raised {names : Names} {seed : Option Int} {ending : Serving.Ending Value} {m : Machine}
    {type message : String} : Serving.call names seed ⟨function, args⟩ = some (ending, m) →
    ending.error? = some (type, message) → FailsToCall function args type message
  | unwritable {names : Names} {seed : Option Int} {v : Value} {m : Machine} :
    Serving.call names seed ⟨function, args⟩ = some (.finished v, m) → v.isWritable = false →
    FailsToCall function args "ValueError" Text.writeLimitMessage

/-- The answers of an interpreter that is asked to load a program. -/
def Loaded (source : Source) (a : Serving.Answer) : Prop :=
  ∃ seed, a = Serving.loadAnswer (Serving.load seed { code := source.text }).1
    (Serving.load seed { code := source.text }).2

inductive Called (function : String) (args : List Json) : Serving.Answer → Prop where
  | undefined {names : Names} {seed : Option Int} :
      Serving.call names seed ⟨function, args⟩ = none →
    Called function args (Serving.undefinedAnswer function)
  | ended {names : Names} {seed : Option Int} {ending : Serving.Ending Value} {m : Machine} :
    Serving.call names seed ⟨function, args⟩ = some (ending, m) →
    Called function args (Serving.callAnswer ending m)

theorem Loaded.reports {j : Json} (h : Loaded source (.reply j)) :
    Reports (FailsToLoad source) j := by
  obtain ⟨seed, hanswer⟩ := h
  rcases hload : Serving.load seed { code := source.text } with ⟨ending, m⟩
  rw [hload] at hanswer
  have herror {type message : String} (herror : ending.error? = some (type, message)) :
      FailsToLoad source type message := ⟨seed, hload ▸ herror⟩
  cases ending with
  | finished _ =>
      rw [Serving.Answer.reply.inj hanswer]
      exact .well rfl
  | suspended prompt =>
      exact absurd (congrArg Prod.fst hload) (Serving.load_ne_suspended seed _ prompt)
  | failed e =>
      rw [Serving.loadAnswer_failed] at hanswer
      rw [Serving.Answer.reply.inj hanswer]
      exact .error (some e.line) rfl
        (Serving.isLine_of_reported (Serving.reported_of_runProgram hload)) (herror rfl)
  | malformed line =>
      rw [Serving.Answer.reply.inj hanswer]
      exact .error (some line) rfl (by decide) (herror rfl)
  | unreported | hung | crashed => exact absurd hanswer nofun

theorem Called.reports {j : Json} (h : Called function args (.reply j)) :
    Reports (FailsToCall function args) j := by
  generalize ha : Serving.Answer.reply j = a at h
  cases h with
  | undefined hcall =>
      rw [Serving.Answer.reply.inj ha]
      exact .error none rfl (by decide) (.undefined hcall)
  | @ended names seed ending m hcall =>
      cases ending with
      | finished v =>
          cases hwritable : v.isWritable with
          | false =>
              rw [Serving.callAnswer_unwritable hwritable] at ha
              rw [Serving.Answer.reply.inj ha]
              exact .error none rfl (by decide) (.unwritable hcall hwritable)
          | true =>
              cases hfinite : v.jsonable.hasNonFinite with
              | true =>
                  rw [callAnswer_nonFinite hwritable hfinite] at ha
                  exact absurd ha nofun
              | false =>
                  rw [Serving.callAnswer_finished hwritable hfinite] at ha
                  rw [Serving.Answer.reply.inj ha]
                  exact .well rfl
      | suspended prompt => exact absurd rfl (Serving.call_ne_suspended hcall prompt)
      | failed e =>
          rw [Serving.callAnswer_failed] at ha
          rw [Serving.Answer.reply.inj ha]
          exact .error (some e.line) rfl
            (Serving.isLine_of_reported (Serving.reported_of_call hcall))
            (.raised hcall rfl)
      | malformed line =>
          rw [Serving.Answer.reply.inj ha]
          exact .error (some line) rfl (by decide) (.raised hcall rfl)
      | unreported | hung | crashed => exact absurd ha nofun

end Challenge

/-! ### Requests -/

namespace Process

open Challenge

variable {source : Source} {function : String} {args : List Json}

theorem meets_serve_load (source : Source) (q : Nat) : (serve q "/load" (loadBody source)).Meets Any
    (Yields (Loaded source)) Any Failure.IsAside := by
  have hserve : (serveLoad q { code := source.text }).Meets Any (Yields (Loaded source)) Any
      Failure.IsAside := by
    refine .bind (meets_applySeed none) fun seed _ => ?_
    exact .after (.change _) fun _ => .after (.change _) fun _ => meets_delivered ⟨seed, rfl⟩ q
  refine .after (fails_need _).aside fun c => .ite (fun _ => .pure (.fault _)) fun _ => ?_
  rw [if_neg (by decide), if_pos rfl, fitBody_loadBody]
  exact hserve

theorem meets_serve_call (function : String) (args : List Json) (q : Nat) :
    (serve q "/call" (callBody function args)).Meets Any (Yields (Called function args)) Any
      Failure.IsAside := by
  have hserve : (serveCall q ⟨function, args⟩).Meets Any (Yields (Called function args)) Any
      Failure.IsAside := by
    refine .after (fails_need _).aside fun c => .after (.view _) fun seed => ?_
    split
    · exact meets_delivered (.undefined ‹_›) q
    · exact .after (.change _) fun _ => .after (.change _) fun _ => meets_delivered (.ended ‹_›) q
  refine .after (fails_need _).aside fun c => .ite (fun _ => .pure (.fault _)) fun _ => ?_
  rw [if_neg (by decide), if_neg (by decide), fitBody_callBody]
  exact hserve

end Process

namespace Challenge

variable {source : Source} {function path : String} {args : List Json} {others : Interrupts}
  {i : Nat} {s t : Sandbox} {e : Failure} {E : String → String → Prop}

/-! ### Reasons -/

/-- Why something has failed: an error of a program, or the loss of its interpreter. -/
inductive Reason (path : String) (E : String → String → Prop) : String → Prop where
  | error {type message : String} (line : Option Int) (prependLines : Int) : Text.IsLine type →
    E type message → Reason path E (errorLine type message line prependLines)
  | lost {e : Failure} {timeout : Binary64} : e.IsLoss path timeout → Reason path E e.message

theorem meets_fieldsOf {α : Type} {P : α → Prop} {E' : Failure → Prop} {reply : Json}
    {f : List (String × Json) → Op α} (h : Reports E reply)
    (hf : ∀ fields, Reports E (.obj fields) → (f fields).Meets Any P Any E') :
    (fieldsOf reply >>= f).Meets Any P Any E' := by
  obtain ⟨fields, rfl⟩ : ∃ fields, reply = .obj fields := by
    cases h with
    | well _ => exact ⟨_, rfl⟩
    | error _ _ _ _ => exact ⟨_, rfl⟩
  have hfields : (fieldsOf (.obj fields)).Meets Any (· = fields) Any E' := .pure rfl
  refine hfields.bind ?_
  rintro _ rfl
  exact hf _ h

/-- A failure for which the error of a reply that is not well is the reason. -/
theorem meets_complaint {α : Type} {P : α → Prop} {E' : Failure → Prop}
    {complaint : String → Failure}
    {fields : List (String × Json)} (haside : ∀ e : Failure, e.IsAside → E' e)
    (hreason : ∀ reason, Reason path E reason → E' (complaint reason))
    (h : Reports E (.obj fields)) (hstatus : (fields.lookup "status").bind Json.str? ≠ some "ok") :
    (describe i fields >>= fun reason => Op.fail (complaint reason)).Meets Any P Any E' := by
  cases h with
  | well hwell =>
      rw [hwell] at hstatus
      exact absurd rfl hstatus
  | error line herror htype hmessage =>
      rw [describe_eq]
      have hexplain (c : Challenge) :
          (Op.ofExcept (explain fields (c.source.map (·.prependLines) |>.getD 0))).Meets Any
            (Reason path E) Any E' := by
        rw [explain_of_error herror]
        exact .pure (.error line _ htype hmessage)
      have hchallenge : (challenge i).Meets Any (fun _ => True) Any E' :=
        .need fun name => haside _ ⟨rfl, nofun⟩
      exact (hchallenge.bind fun c _ => hexplain c).bind fun reason h => .fail (hreason reason h)

theorem fails_teardown (i : Nat) : (teardown i).FailsAs Failure.IsOther :=
  .bind (.change _) fun _ => .bind (fails_need _) fun c => Registry.fails_reset c.key

theorem meets_teardown (i : Nat) :
    (teardown i).Meets Genuine (fun _ => True) Genuine Failure.IsAside := by
  have hmirrors : (teardown i).Mirrors Mirror.plain (teardown i) Eq := mirrors_teardown i
  exact (hmirrors.meets (recalls_teardown i).deaf (fails_teardown i).aside).mono
    (fun _ _ => trivial) fun _ => id

inductive FailedLoad (source : Source) : Failure → Prop where
  | aside {e : Failure} : e.IsAside → FailedLoad source e
  | reason {reason : String} : Reason "/load" (FailsToLoad source) reason →
    FailedLoad source (.challengeLoad reason)

inductive FailedCall (function : String) (args : List Json) : Failure → Prop where
  | aside {e : Failure} : e.IsAside → FailedCall function args e
  | inactive : FailedCall function args .challengeInactive
  | expired : FailedCall function args (.challengeExpired function)
  | reason {reason : String} : Reason "/call" (FailsToCall function args) reason →
    FailedCall function args (.challengeCall function reason)

theorem meets_begun {reply : Json} (h : Reports (FailsToLoad source) reply) :
    (begun i reply).Meets Any (fun _ => True) Any (FailedLoad source) := by
  refine meets_fieldsOf h fun fields hfields => .ite (fun hstatus => ?_) fun _ =>
    .after (.change _) fun _ => .pure trivial
  refine .after ((fails_teardown i).mono fun _ h => .aside h.aside) fun _ => ?_
  exact meets_complaint (fun _ => .aside) (fun _ => .reason) hfields hstatus

theorem meets_loadFailure {timeout : Binary64} (h : e.IsAside ∨ e.IsLoss "/load" timeout) :
    (loadFailure e).Meets Any (Reports (FailsToLoad source)) Any (FailedLoad source) := by
  refine .fail ?_
  split
  · exact .reason (.lost (.of_loses h ‹_›))
  · exact .aside (.of_keeps h ‹_›)

theorem meets_load (source : Source) (i : Nat) : (load Contexts.onSweep i source).Meets Genuine
    (fun _ => True) Any (FailedLoad source) := by
  have haside {α : Type} {x : Op α} {P : α → Prop} {J : Sandbox → Prop}
      (hx : x.Meets Genuine P J Failure.IsAside) : x.Meets Genuine P J (FailedLoad source) :=
    hx.mono (fun _ => id) fun _ => .aside
  refine (haside (meets_teardown i)).bind fun _ _ => ?_
  have hset : (setChallenge i fun c => { c with source := some source }).Meets Genuine
      (fun _ => True) Genuine (FailedLoad source) := .change fun s hs => { hs with }
  refine hset.bind fun _ _ => ?_
  refine .bind (.need fun name => .aside ⟨rfl, nofun⟩) fun c _ => ?_
  refine (haside (Registry.meets_acquire _)).bind fun _ _ => ?_
  -- Nothing has to be known of the state once the request is on its way.
  have hpost (h : Nat) : (Interpreter.load h source.text c.timeout .null).Meets Genuine
      (Reports (FailsToLoad source)) Any fun e => e.IsAside ∨ e.IsLoss "/load" c.timeout :=
    (Interpreter.meets_post h c.timeout (Process.meets_serve_load source)).mono
      (fun _ h => Loaded.reports h) fun _ => id
  have hholding := Registry.meets_holding c.key (fun e he => .inl he) hpost
  exact (hholding.rescue fun e he => meets_loadFailure he).bind fun reply h => meets_begun h

theorem meets_conclude {reply : Json} (h : Reports (FailsToCall function args) reply) :
    (conclude i function reply).Meets Any (fun _ => True) Any (FailedCall function args) := by
  refine .after (.change _) fun _ => meets_fieldsOf h fun fields hfields =>
    .after (.change _) fun _ => .ite (fun hstatus => ?_) fun _ => .pure trivial
  exact meets_complaint (fun _ => .aside) (fun _ => .reason) hfields hstatus

theorem meets_callFailure {timeout : Binary64} (h : e.IsAside ∨ e.IsLoss "/call" timeout) :
    (callFailure i function e).Meets Any (Reports (FailsToCall function args)) Any
      (FailedCall function args) := by
  refine .ite (fun hlost => ?_) fun hkept => .ite (fun _ => ?_) fun _ => .fail ?_
  · exact .after (.change _) fun _ => .fail (.reason (.lost (.of_loses h hlost)))
  · exact .after (.change _) fun _ => .fail .expired
  · exact .aside (.of_keeps h hkept)

theorem meets_invoke (function : String) (args : List Json) (i : Nat) :
    (invoke i function args).Meets Genuine (fun _ => True) Any (FailedCall function args) := by
  refine .bind (.need fun name => .aside ⟨rfl, nofun⟩) fun c _ =>
    .ite (fun _ => .fail .inactive) fun _ => ?_
  have hpost (h : Nat) : (Interpreter.call h function args c.timeout).Meets Genuine
      (Reports (FailsToCall function args)) Any fun e => e.IsAside ∨ e.IsLoss "/call" c.timeout :=
    (Interpreter.meets_post h c.timeout (Process.meets_serve_call function args)).mono
      (fun _ h => Called.reports h) fun _ => id
  have hholding := Registry.meets_holding c.key (fun e he => .inl he) hpost
  exact (hholding.rescue fun e he => meets_callFailure he).bind fun reply h => meets_conclude h

/-! ### Texts -/

/-- The text of a failure: a head, in which certain words may stand, and after it an error as `E`
has it, or what is said of the loss of an interpreter. -/
inductive Complains (head : String) (borrowed : List String) (path : String)
    (E : String → String → Prop) (text : String) : Prop where
  | error {type message : String} : E type message → Text.Worded (message :: borrowed)
    (fun text => ∃ reason, TellsOf type message reason ∧ text = head ++ reason) text →
    Complains head borrowed path E text
  | late (timeout : Binary64) : Text.Worded borrowed
    (· = head ++ ("Execution exceeded " ++ timeout.brief ++ "s")) text →
    Complains head borrowed path E text
  | lost {e : Failure} {words : List String} : e.IsCrash path words →
    Text.Worded (words ++ borrowed) (· = head ++ e.message) text →
    Complains head borrowed path E text

theorem Reason.complains {head reason : String} {borrowed : List String} (hne : head ≠ "")
    (hhead : Text.Unbroken head ↔ ∀ w ∈ borrowed, Text.Unbroken w) (hpath : Text.Unbroken path)
    (h : Reason path E reason) : Complains head borrowed path E (head ++ reason) := by
  have hne (reason : String) : head ++ reason ≠ "" := by simp [hne]
  cases h with
  | @error type message line prependLines htype hmessage =>
      refine .error hmessage ⟨hne _, ⟨_, tellsOf_errorLine type message line prependLines, rfl⟩, ?_⟩
      rw [Text.unbroken_append, hhead, Traceback.unbroken_errorLine_iff htype.unbroken,
        List.forall_mem_cons, and_comm]
  | @lost _ timeout hloss =>
      cases hloss with
      | late shown =>
          refine .late timeout ⟨hne _, rfl, ?_⟩
          show Text.Unbroken (head ++ ("Execution exceeded " ++ timeout.brief ++ "s")) ↔ _
          rw [← hhead, Text.unbroken_append, Text.unbroken_append, Text.unbroken_append]
          exact and_iff_left ⟨⟨by decide, Binary64.unbroken_brief timeout⟩, by decide⟩
      | crash hcrash =>
          refine .lost hcrash ⟨hne _, rfl, ?_⟩
          rw [Text.unbroken_append, hhead, hcrash.unbroken_iff hpath,
            List.forall_mem_append, and_comm]

/-- The text of a load that fails because of its program. -/
theorem load_complains (hs : s.Genuine)
    (h : load Contexts.onSweep i source others s = (.error e, t)) (hkind : e.kind = .challenge) :
    Complains "Failed to initialize challenge session: " [] "/load"
      (FailsToLoad source) e.message := by
  cases (meets_load source i).fails hs h with
  | aside haside => exact absurd hkind haside.2
  | reason hreason =>
      exact hreason.complains (by decide) (iff_of_true (by decide) (List.forall_mem_nil _))
        (by decide)

/-- The text of a call that fails, unless the challenge cannot be called at all. -/
theorem invoke_complains (hs : s.Genuine) (h : invoke i function args others s = (.error e, t))
    (hkind : e.kind = .challenge) : e = .challengeInactive ∨ e = .challengeExpired function ∨
      Complains ("Failed to execute " ++ function ++ ": ") [function] "/call"
        (FailsToCall function args) e.message := by
  cases (meets_invoke function args i).fails hs h with
  | aside haside => exact absurd hkind haside.2
  | inactive => exact .inl rfl
  | expired => exact .inr (.inl rfl)
  | reason hreason =>
      refine .inr (.inr (hreason.complains (by simp) ?_ (by decide)))
      rw [List.forall_mem_singleton, Text.unbroken_append, Text.unbroken_append]
      exact ⟨fun h => h.1.2, fun h => ⟨⟨by decide, h⟩, by decide⟩⟩

end Challenge

/-! ### All that is told of errors -/

/-- Whatever others do, errors are told in these ways where all answers are given by interpreters.
An error is absent, or it is not empty and tells of a type and a message or in fixed words of what
was lost. It is in one line exactly if the message of the exception is, or the reason of the
connection, and the name of the function that was called, so that a message of several lines is told
as it is. An error that a judge has found is always in one line. -/
theorem Sandbox.Genuine.tells_errors {s : Sandbox} (hs : s.Genuine) (others : Interrupts) :
    (∀ consumed (r : Execution.Request) o t,
      Execution.execute Contexts.onSweep consumed r others s = (.ok o, t) → r.Explains o.error ∨
        ∃ e u c, Registry.acquire Contexts.onSweep (some r.key) others s = (.error e, u) ∧
          e.kind = .initialization ∧ u.setup.remote = some c ∧
          Execution.executeRemote c u.setup.remoteMaxWait r u.clock others u = (.ok o, t)) ∧
    (∀ c maxWait (r : Execution.Request) started u o t,
      Execution.executeRemote c maxWait r started others u = (.ok o, t) → ∃ answer v,
        c.execute r.source.text (Text.joinLines r.values) none maxWait r.cancel others u =
          (.ok answer, v) ∧
        Execution.Summarizes answer o.error ∧ ∀ text ∈ o.error, Text.IsLine text) ∧
    (∀ i source e t, Challenge.load Contexts.onSweep i source others s = (.error e, t) →
      e.kind = .challenge →
      Challenge.Complains "Failed to initialize challenge session: " [] "/load"
        (Challenge.FailsToLoad source) e.message) ∧
    ∀ i function args e t, Challenge.invoke i function args others s = (.error e, t) →
      e.kind = .challenge → e = .challengeInactive ∨ e = .challengeExpired function ∨
        Challenge.Complains ("Failed to execute " ++ function ++ ": ") [function] "/call"
          (Challenge.FailsToCall function args) e.message :=
  ⟨fun _ _ _ _ => Execution.execute_explains hs,
    fun _ _ _ _ _ _ _ => Execution.executeRemote_summarizes,
    fun _ _ _ _ => Challenge.load_complains hs, fun _ _ _ _ _ => Challenge.invoke_complains hs⟩

/-- A program that raises an exception whose message has two lines. -/
def raising : Execution.Request where
  source := { code := "[\"raise\", \"ValueError\", \"a\\nb\"]" }
  key := "k"
  values := []
  timeout := .ofInt 10

/-- A sandbox with a challenge that has not been loaded. -/
def Sandbox.challenged : Sandbox :=
  { usual with challengeTable := [{ key := "challenge-a", timeout := .ofInt 5 }] }

theorem Sandbox.challenged_genuine : challenged.Genuine where
  byInputs h := nomatch h
  children _ h := nomatch h
  scripts _ h := nomatch h

/-- Both lines are told by an execution, and when it is loaded into a challenge. -/
theorem Sandbox.Genuine.tells_errors_raising : ∃ o t e u,
    Execution.execute Contexts.onSweep (fun _ => pure ()) raising (fun _ s => s) challenged =
      (.ok o, t) ∧
    raising.Explains o.error ∧ o.error = some "Line 1: ValueError: a\nb" ∧
    ¬ Text.Unbroken "Line 1: ValueError: a\nb" ∧
    Challenge.load Contexts.onSweep 0 raising.source (fun _ s => s) challenged = (.error e, u) ∧
    Challenge.Complains "Failed to initialize challenge session: " [] "/load"
      (Challenge.FailsToLoad raising.source) e.message ∧
    e.message = "Failed to initialize challenge session: Line 1: ValueError: a\nb" := by
  obtain ⟨hlocal, -, hload, -⟩ := tells_errors challenged_genuine fun _ s => s
  obtain ⟨hgot, hexecuted, hkind, htext⟩ :
      (Registry.acquire Contexts.onSweep (some raising.key) (fun _ s => s)
        challenged).1.toOption.isSome = true ∧
      (Execution.execute Contexts.onSweep (fun _ => pure ()) raising (fun _ s => s)
        challenged).1.toOption.map Outcome.error = some (some "Line 1: ValueError: a\nb") ∧
      Failure.hasKind .challenge (Challenge.load Contexts.onSweep 0 raising.source (fun _ s => s)
        challenged).1 = true ∧
      Challenge.outText (Challenge.load Contexts.onSweep 0 raising.source (fun _ s => s)
        challenged).1 = "Failed to initialize challenge session: Line 1: ValueError: a\nb" := by
    decide +kernel
  rcases hexecute : Execution.execute Contexts.onSweep (fun _ => pure ()) raising (fun _ s => s)
    challenged with ⟨e' | o, t⟩ <;> rw [hexecute] at hexecuted
  · nomatch hexecuted
  rcases hloaded : Challenge.load Contexts.onSweep 0 raising.source (fun _ s => s) challenged with
    ⟨e | j, u⟩ <;> rw [hloaded] at hkind htext
  swap
  · nomatch hkind
  obtain ⟨e', he, hchallenge⟩ := Failure.hasKind_iff.mp hkind
  obtain rfl := Except.error.inj he
  refine ⟨o, t, e, u, rfl, ?_, Option.some.inj hexecuted, by decide, rfl,
    hload 0 raising.source e u hloaded hchallenge, htext⟩
  -- A session was got, so that the execution was not left to a judge.
  refine (hlocal _ raising o t hexecute).resolve_right ?_
  rintro ⟨e', u, c, hacquire, -⟩
  rw [hacquire] at hgot
  nomatch hgot

end Rerun
