import Rerun.Proofs.Remote.Input
import Rerun.Proofs.Remote.Judgement
import Rerun.Proofs.Remote.Reports
import Rerun.Proofs.Sandbox.Recalls

/-!
Which failures of the remote judge are reported as such. Whether an execution at the judge comes to
a remote outcome or to a failure of the judge, and to nothing else, depends on what the judge
answers at each request, and the condition is put together along the requests (`Request.Legible`).

There is one rule for each way of putting operations together (`Op.Reported`), and each is an
equivalence, so that the condition is exact.
-/

namespace Rerun

open Sandbox

variable {others : Interrupts} {s t : Sandbox}

namespace Op

variable {α β : Type}

/-- An operation that fails, if it does, with a failure of the judge. -/
def Reported (x : Op α) (others : Interrupts) (s : Sandbox) : Prop :=
  ∀ e, (x others s).1 = .error e → e.kind = .remote

theorem reported_of_eq {x : Op α} {r : Except Failure α} (h : x others s = (r, t)) :
    x.Reported others s ↔ ∀ e, r = .error e → e.kind = .remote := by
  rw [Reported, h]

theorem reported_of_ok {x : Op α} {a : α} (h : x others s = (.ok a, t)) : x.Reported others s :=
  (reported_of_eq h).mpr nofun

theorem reported_fail {e : Failure} : (Op.fail e : Op α).Reported others s ↔ e.kind = .remote := by
  refine ⟨fun h => h e rfl, fun h e' he => ?_⟩
  rw [← Except.error.inj he]
  exact h

theorem reported_pure (a : α) : (pure a : Op α).Reported others s := reported_of_ok rfl

/-- What never fails with a failure of the judge is reported when it does not fail. -/
theorem reported_ofExcept {r : Except Failure α} (h : ∀ e, r = .error e → e.kind ≠ .remote) :
    (Op.ofExcept r).Reported others s ↔ ∃ a, r = .ok a := by
  cases r with
  | ok a => exact iff_of_true (reported_pure a) ⟨a, rfl⟩
  | error e => exact iff_of_false (fun hr => h e rfl (reported_fail.mp hr)) nofun

/-- A sequence is reported when its parts are, the second one as far as it comes to it. -/
theorem reported_bind {x : Op α} {f : α → Op β} :
    (x >>= f).Reported others s ↔
      x.Reported others s ∧ ∀ a t, x others s = (.ok a, t) → (f a).Reported others t := by
  unfold Reported
  rw [bind_apply]
  rcases x others s with ⟨e | a, t⟩ <;> dsimp only
  · refine ⟨fun h => ⟨fun e' he => ?_, fun a u ha => absurd (Prod.mk.inj ha).1 nofun⟩,
      fun h e' he => ?_⟩
    · exact h e' (congrArg Except.error (Except.error.inj he))
    · exact h.1 e' (congrArg Except.error (Except.error.inj he))
  · refine ⟨fun h => ⟨fun e he => absurd he nofun, fun b u hb => ?_⟩, fun h => h.2 a t rfl⟩
    obtain ⟨hab, rfl⟩ := Prod.mk.inj hb
    obtain rfl := Except.ok.inj hab
    exact h

theorem Does.reported_bind {x : Op α} {a : α} (hx : x.Does s a t) (f : α → Op β) :
    (x >>= f).Reported others s ↔ (f a).Reported others t := by
  unfold Reported
  rw [hx.step f others]

end Op

/-! ### Requests -/

namespace RemoteClient

variable {c : RemoteClient} {method path query : String} {body : Json}

/-- What the judge sends when a request ends so, if that is an answer that can be read. -/
def heard : Option Ended → Option Json
  | some (.answer status body) =>
    if Interpreter.isSuccess status then (Interpreter.jsonOf body).toOption else none
  | _ => none

def reading (c : RemoteClient) (method path : String) : Option Ended → Except Failure Json
  | none => .error (.remoteUnreachable c.baseUrl "script exhausted")
  | some .interrupt => .error .interrupted
  | some (.fault f) => .error (.remoteUnreachable c.baseUrl f.message)
  | some (.answer status body) =>
    if Interpreter.isSuccess status then
      (Interpreter.jsonOf body).mapError fun _ => .remoteNotJson method path
    else .error (.remoteStatus status method path)

theorem reading_eq_ok {ended : Option Ended} {j : Json} :
    c.reading method path ended = .ok j ↔ heard ended = some j := by
  rcases ended with _ | _ | f | ⟨status, body⟩
  · exact iff_of_false nofun nofun
  · exact iff_of_false nofun nofun
  · exact iff_of_false nofun nofun
  · dsimp only [reading, heard]
    split
    · cases Interpreter.jsonOf body with
      | ok k =>
          exact ⟨fun h => congrArg some (Except.ok.inj h), fun h => congrArg _ (Option.some.inj h)⟩
      | error e => exact ⟨fun h => (by cases h), fun h => (by cases h)⟩
    · exact iff_of_false nofun nofun

/-- Only an interrupt keeps a client from reporting a request that failed. -/
theorem reading_reported {ended : Option Ended} :
    (∀ e, c.reading method path ended = .error e → e.kind = .remote) ↔ ended ≠ some .interrupt := by
  rcases ended with _ | _ | f | ⟨status, body⟩
  · exact iff_of_true (fun e he => Except.error.inj he ▸ rfl) nofun
  · exact iff_of_false (fun h => absurd (h .interrupted rfl) nofun) fun h => h rfl
  · exact iff_of_true (fun e he => Except.error.inj he ▸ rfl) nofun
  · refine iff_of_true (fun e he => ?_) nofun
    dsimp only [reading] at he
    split at he
    · cases hbody : Interpreter.jsonOf body with
      | ok j =>
          rw [hbody] at he
          exact absurd he nofun
      | error fault =>
          rw [hbody] at he
          exact Except.error.inj he ▸ rfl
    · exact Except.error.inj he ▸ rfl

/-- What happens when the judge gets its next request. -/
def upcoming (s : Sandbox) : Scripted :=
  s.remoteScript.headD { ended := some (.fault (.transport "script exhausted")) }

/-- How a request ends, and the state after it, when others have acted. -/
def exchange (c : RemoteClient) (method path query : String) (body : Json) (others : Interrupts)
    (s : Sandbox) : Option Ended × Sandbox :=
  ((upcoming s).ended, others (upcoming s).during { c.sent method path query body s with
    remoteScript := s.remoteScript.tail
    clock := s.clock + (upcoming s).took })

theorem request_exchange (h : c.IsOpen s) : c.request method path query body others s =
    (c.reading method path (c.exchange method path query body others s).1,
      (c.exchange method path query body others s).2) := by
  have hnext : nextScripted.Does (c.sent method path query body s) (upcoming s)
      { c.sent method path query body s with remoteScript := s.remoteScript.tail } := by
    intro others
    cases hscript : s.remoteScript with
    | nil => simp [nextScripted, upcoming, sent, hscript]
    | cons a rest => simp [nextScripted, upcoming, sent, hscript]
  rw [request_eq h, answered, hnext.step, (Op.does_change _).step]
  have hacts (f : Unit → Op Json) (u : Sandbox) :
      (Op.interleave (upcoming s).during >>= f) others u =
      f () others (others (upcoming s).during u) :=
    rfl
  rw [hacts, exchange]
  dsimp only
  cases (upcoming s).ended with
  | none => rfl
  | some ended =>
      cases ended with
      | interrupt => rfl
      | fault f => rfl
      | answer status body =>
          dsimp only [reading]
          split
          · rw [Interpreter.readBody_eq]
            cases Interpreter.jsonOf body <;> rfl
          · rfl

theorem request_of_closed (h : ¬ c.IsOpen s) :
    c.request method path query body others s = (.error (.other "RuntimeError"), s) := by
  have hclosed : (c.shared && s.remoteClosed) = true := by
    rw [← Bool.not_eq_false]
    exact h
  simp [request, ensureOpen, Op.bind_apply, Op.view, hclosed, Op.fail]

/-- A request is reported unless the client was closed or the client is interrupted. -/
theorem reported_request : (c.request method path query body).Reported others s ↔
    c.IsOpen s ∧ (upcoming s).ended ≠ some .interrupt := by
  by_cases hopen : c.IsOpen s
  · rw [Op.reported_of_eq (request_exchange hopen), reading_reported]
    exact ⟨fun h => ⟨hopen, h⟩, fun h => h.2⟩
  · rw [Op.reported_of_eq (request_of_closed hopen)]
    exact ⟨fun h => absurd (h _ rfl) nofun, fun h => absurd h.1 hopen⟩

theorem request_eq_ok {j : Json} : c.request method path query body others s = (.ok j, t) ↔
    c.IsOpen s ∧ heard (upcoming s).ended = some j ∧
      (c.exchange method path query body others s).2 = t := by
  by_cases hopen : c.IsOpen s
  · rw [request_exchange hopen, Prod.mk.injEq, reading_eq_ok]
    exact ⟨fun h => ⟨hopen, h⟩, fun h => h.2⟩
  · rw [request_of_closed hopen]
    exact ⟨fun h => absurd (Prod.mk.inj h).1 nofun, fun h => absurd h.1 hopen⟩

/-! ### Submissions and polls -/

/-- A submission is reported when what was heard, if anything was, is an object. -/
theorem reported_submit {source stdin : String} {expected : Option String} :
    (c.submit source stdin expected).Reported others s ↔
      (c.IsOpen s ∧ (upcoming s).ended ≠ some .interrupt) ∧
        ∀ j, heard (upcoming s).ended = some j → ∃ fields, j = .obj fields := by
  rw [submit, Op.reported_bind, reported_request]
  refine and_congr_right fun hsent => ⟨fun h j hj => ?_, fun h j t hj => ?_⟩
  · have hread := h j _ (request_eq_ok.mpr ⟨hsent.1, hj, rfl⟩)
    cases j with
    | obj fields => exact ⟨fields, rfl⟩
    | _ => exact absurd (Op.reported_fail.mp hread) (by decide)
  · obtain ⟨fields, rfl⟩ := h j (request_eq_ok.mp hj).2.1
    dsimp only
    split
    · exact Op.reported_fail.mpr rfl
    · exact Op.reported_pure _

def statusPath (token : Json) : String := "/submissions/" ++ (Value.ofJson token).text

theorem poll_unfold (token : Json) : c.poll token =
    if !isAddress (statusPath token) then Op.fail (.other "InvalidURL")
    else c.request "GET" (statusPath token) "?base64_encoded=false" .null >>= fun payload =>
      match Shape.fit RemoteResponse.shape payload with
      | .ok j => pure (.ofFields j)
      | .error _ => Op.fail (.remotePayload (Value.ofJson token).text) :=
  rfl

/-- A poll is reported when there is an address for it; what the judge answers makes no
difference. -/
theorem reported_poll {token : Json} : (c.poll token).Reported others s ↔
    isAddress (statusPath token) = true ∧ c.IsOpen s ∧ (upcoming s).ended ≠ some .interrupt := by
  rw [poll_unfold]
  cases isAddress (statusPath token) with
  | false => exact iff_of_false (fun h => absurd (Op.reported_fail.mp h) nofun) fun h => nomatch h.1
  | true =>
      have hread (payload : Json) (t : Sandbox) : (match Shape.fit RemoteResponse.shape payload with
          | .ok j => pure (.ofFields j)
          | .error _ => Op.fail (.remotePayload (Value.ofJson token).text) :
            Op RemoteResponse).Reported others t := by
        split
        · exact Op.reported_pure _
        · exact Op.reported_fail.mpr rfl
      refine Op.reported_bind.trans ?_
      rw [reported_request]
      exact ⟨fun h => ⟨rfl, h.1⟩, fun h => ⟨h.2, fun payload t _ => hread payload t⟩⟩

/-- It is time to poll: the deadline has not come, and the event is not set. -/
def IsDue (deadline : Binary64) (cancel : Cancel) (s : Sandbox) : Prop :=
  (Binary64.ofMillis s.clock).lt deadline = true ∧ cancel.dueAt s ≠ some s.clock

/-- Whenever it is time to poll, there is an address for it and an open client, and nobody is
interrupted. -/
def PollsOn (c : RemoteClient) (token : Json) (deadline : Binary64) (cancel : Cancel)
    (others : Interrupts) : (fuel : Nat) → Sandbox → Prop
  | 0, _ => True
  | fuel + 1, s => IsDue deadline cancel s →
    (isAddress (statusPath token) = true ∧ c.IsOpen s ∧ (upcoming s).ended ≠ some .interrupt) ∧
      ∀ response t u, c.poll token others s = (.ok response, t) → response.finished = false →
        cancel.wait c.pollInterval others t = (.ok false, u) →
        PollsOn c token deadline cancel others fuel u

theorem reported_wait {cancel : Cancel} {seconds : Binary64} :
    (cancel.wait seconds).Reported others s := by
  unfold Op.Reported Cancel.wait
  dsimp only
  repeat' split
  all_goals exact fun e he => absurd he nofun

theorem reported_pollUntil {token : Json} {deadline : Binary64} {cancel : Cancel} {fuel : Nat} :
    (c.pollUntil token deadline cancel fuel).Reported others s ↔
      PollsOn c token deadline cancel others fuel s := by
  induction fuel generalizing s with
  | zero => exact iff_of_true (Op.reported_pure _) trivial
  | succ fuel ih =>
      have hnow : now.Does s s.clock s := Op.does_view _
      have hset : cancel.isSet.Does s (decide (cancel.dueAt s = some s.clock)) s := Op.does_view _
      have hafter (response : RemoteResponse) (t : Sandbox) : (do
          if response.finished then pure (.response response)
          else if ← cancel.wait c.pollInterval then pure .cancelled
          else pollUntil c token deadline cancel fuel : Op Polled).Reported others t ↔
          (response.finished = false → ∀ u, cancel.wait c.pollInterval others t = (.ok false, u) →
            PollsOn c token deadline cancel others fuel u) := by
        cases response.finished with
        | true => exact iff_of_true (Op.reported_pure _) nofun
        | false =>
            refine Op.reported_bind.trans ⟨fun h _ u hu => ih.mp (h.2 false u hu), fun h => ?_⟩
            refine ⟨reported_wait, ?_⟩
            intro set u hu
            cases set with
            | true => exact Op.reported_pure _
            | false => exact ih.mpr (h rfl u hu)
      rw [pollUntil, hnow.reported_bind, PollsOn]
      cases hlt : (Binary64.ofMillis s.clock).lt deadline with
      | false => exact iff_of_true (Op.reported_pure _) fun h => absurd (hlt ▸ h.1) nofun
      | true =>
          refine (hset.reported_bind _).trans ?_
          by_cases hdue : cancel.dueAt s = some s.clock
          · rw [decide_eq_true hdue]
            exact iff_of_true (Op.reported_pure _) fun h => absurd hdue h.2
          · rw [decide_eq_false hdue]
            refine Op.reported_bind.trans ?_
            rw [reported_poll]
            refine ⟨fun h _ => ⟨h.1, fun response t u hpoll hfinished hu => ?_⟩, fun h => ?_⟩
            · exact (hafter response t).mp (h.2 response t hpoll) hfinished u hu
            · obtain ⟨hpolls, hrest⟩ := h ⟨hlt, hdue⟩
              exact ⟨hpolls, fun response t hpoll => (hafter response t).mpr fun hfinished u hu =>
                hrest response t u hpoll hfinished hu⟩

/-- An execution at the judge is reported when its submission and its polls are, and its token is a
text when no final response comes in time. -/
theorem reported_execute {source stdin : String} {expected : Option String} {maxWait : Binary64}
    {cancel : Cancel} : (c.execute source stdin expected maxWait cancel).Reported others s ↔
      (c.submit source stdin expected).Reported others s ∧
        ∀ token t, c.submit source stdin expected others s = (.ok token, t) →
          let deadline := (Binary64.ofMillis t.clock).add maxWait
          let fuel := t.remoteScript.length + 2
          PollsOn c token deadline cancel others fuel t ∧
            ∀ u, c.pollUntil token deadline cancel fuel others t = (.ok .outOfTime, u) →
              ∃ text, token = .str text := by
  rw [execute, Op.reported_bind]
  refine and_congr_right fun _ => forall₃_congr fun token t _ => ?_
  have hnow : now.Does t t.clock t := Op.does_view _
  have hfuel : (Op.view fun s : Sandbox => s.remoteScript.length + 2).Does t
      (t.remoteScript.length + 2) t := Op.does_view _
  rw [hnow.reported_bind, hfuel.reported_bind, Op.reported_bind, reported_pollUntil]
  refine and_congr_right fun _ => ⟨fun h u hu => ?_, fun h polled u hu => ?_⟩
  · have hend := h .outOfTime u hu
    cases token with
    | str text => exact ⟨text, rfl⟩
    | _ => exact absurd (Op.reported_fail.mp hend) (by decide)
  · cases polled with
    | response r => exact Op.reported_pure _
    | cancelled => exact Op.reported_pure _
    | unfinished => exact Op.reported_pure _
    | outOfTime =>
        obtain ⟨text, rfl⟩ := h u hu
        exact Op.reported_pure _

end RemoteClient

/-! ### Responses -/

namespace Execution

variable {r : Request} {response : RemoteResponse}

theorem judgedMs_ok_iff {time : Option String} {elapsed : Int} :
    (∃ ms, judgedMs time elapsed = .ok ms) ↔
      ∀ x, time.bind Binary64.read? = some x → x = .nan ∨
      (x.mul (.ofInt 1000)).isFinite = true := by
  unfold judgedMs
  split
  · rename_i h
    refine iff_of_true ⟨elapsed, rfl⟩ fun x hx => .inl ?_
    exact Option.some.inj (hx.symm.trans h)
  · rename_i h
    exact iff_of_true ⟨elapsed, rfl⟩ fun x hx => absurd (hx.symm.trans h) nofun
  · rename_i x hne h
    by_cases hfinite : (x.mul (.ofInt 1000)).isFinite = true
    · refine iff_of_true ⟨_, if_pos hfinite⟩ fun y hy => .inr ?_
      rw [← Option.some.inj (h.symm.trans hy)]
      exact hfinite
    · refine iff_of_false (fun ⟨ms, hms⟩ => ?_) fun hall => (hall x h).elim hne hfinite
      rw [if_neg hfinite] at hms
      nomatch hms

/-! ### Executions -/

/-- A response of which an outcome can be made: its time is not too long for a number. -/
def Readable (response : RemoteResponse) : Prop :=
  ∀ x, response.time.bind Binary64.read? = some x → x = .nan ∨ (x.mul (.ofInt 1000)).isFinite = true

/-- What an execution at the judge that starts in a state relies on, request by request. -/
structure Legible (r : Request) (c : RemoteClient) (maxWait : Binary64) (others : Interrupts)
    (s : Sandbox) : Prop where
  isOpen : c.IsOpen s
  heeded : (RemoteClient.upcoming s).ended ≠ some .interrupt
  /-- What answers the submission, if it can be read, is an object. -/
  object {j : Json} : RemoteClient.heard (RemoteClient.upcoming s).ended = some j →
    ∃ fields, j = .obj fields
  /-- Each poll has an address and an open client, and nobody is interrupted. -/
  polls {token : Json} {t : Sandbox} :
    c.submit r.source.text (Text.joinLines r.values) none others s = (.ok token, t) →
      c.PollsOn token ((Binary64.ofMillis t.clock).add maxWait) r.cancel others
        (t.remoteScript.length + 2) t
  /-- The token is a text, when no final response comes in time. -/
  token {token : Json} {t u : Sandbox} :
    c.submit r.source.text (Text.joinLines r.values) none others s = (.ok token, t) →
      c.pollUntil token ((Binary64.ofMillis t.clock).add maxWait) r.cancel
        (t.remoteScript.length + 2) others t = (.ok .outOfTime, u) → ∃ text, token = .str text
  response {response : RemoteResponse} {t : Sandbox} :
    c.execute r.source.text (Text.joinLines r.values) none maxWait r.cancel others s =
      (.ok (some response), t) → Readable response

/-- An outcome that comes from the judge, or a failure of the judge. -/
def IsRemote (result : Except Failure Outcome) : Prop :=
  (∃ o, result = .ok o ∧ o.backend = "remote") ∨ ∃ e, result = .error e ∧ e.kind = .remote

theorem judgedMs_kind {time : Option String} {elapsed : Int} {e : Failure}
    (h : judgedMs time elapsed = .error e) : e.kind ≠ .remote := by
  unfold judgedMs at h
  split at h
  · nomatch h
  · nomatch h
  · dsimp only at h
    split at h
    · nomatch h
    · rw [← Except.error.inj h]
      exact nofun

def judgedOutcome (r : Request) (started : Int) (response : RemoteResponse) : Op Outcome := do
  let elapsed ← elapsedMs started
  let timeMs ← Op.ofExcept (judgedMs response.time elapsed)
  pure { status := RemoteStatus.runStatus response.status.id, stdout := response.stdout.getD ""
         stderr := judgedErrors response, error := judgedError r response, timeMs
         runId := r.runId, backend := "remote" }

theorem does_elapsedMs (started : Int) (s : Sandbox) :
    ∃ elapsed, (elapsedMs started).Does s elapsed s :=
  ⟨_, (Op.does_view _).bind (Op.does_pure _)⟩

theorem reported_judgedOutcome {started : Int} :
    (judgedOutcome r started response).Reported others s ↔ Readable response := by
  obtain ⟨elapsed, helapsed⟩ := does_elapsedMs started s
  rw [judgedOutcome, helapsed.reported_bind, Op.reported_bind,
    Op.reported_ofExcept fun _ => judgedMs_kind, judgedMs_ok_iff]
  exact and_iff_left fun _ _ _ => Op.reported_pure _

variable {c : RemoteClient} {maxWait : Binary64} {started : Int}

theorem executeRemote_eq : executeRemote c maxWait r started =
    c.execute r.source.text (Text.joinLines r.values) none maxWait r.cancel >>= fun
      | none => do
        let timeMs ← elapsedMs started
        pure { status := .runtimeError, error := some "Remote execution cancelled", timeMs
               runId := r.runId, backend := "remote" }
      | some response => judgedOutcome r started response :=
  rfl

/-- An execution at the judge is reported exactly when the judge keeps to what it relies on. -/
theorem reported_executeRemote :
    (executeRemote c maxWait r started).Reported others s ↔ Legible r c maxWait others s := by
  rw [executeRemote_eq, Op.reported_bind, RemoteClient.reported_execute,
    RemoteClient.reported_submit]
  constructor
  · rintro ⟨⟨⟨⟨hopen, hheeded⟩, hobject⟩, hpolls⟩, hresponse⟩
    exact { isOpen := hopen, heeded := hheeded, object := hobject _
            polls := fun hsubmit => (hpolls _ _ hsubmit).1
            token := fun hsubmit => (hpolls _ _ hsubmit).2 _
            response := fun hexecute => reported_judgedOutcome.mp (hresponse _ _ hexecute) }
  · intro h
    refine ⟨⟨⟨⟨h.isOpen, h.heeded⟩, fun _ => h.object⟩, fun token t hsubmit =>
      ⟨h.polls hsubmit, fun u => h.token hsubmit⟩⟩, fun answer t hexecute => ?_⟩
    cases answer with
    | none =>
        obtain ⟨elapsed, helapsed⟩ := does_elapsedMs started t
        exact (helapsed.reported_bind _).mpr (Op.reported_pure _)
    | some response => exact reported_judgedOutcome.mpr (h.response hexecute)

theorem backend_executeRemote {o : Outcome}
    (h : executeRemote c maxWait r started others s = (.ok o, t)) : o.backend = "remote" := by
  rw [executeRemote_eq] at h
  obtain ⟨answer, u, -, h⟩ := Op.bind_eq_ok.mp h
  cases answer with
  | none =>
      obtain ⟨ms, v, -, h⟩ := Op.bind_eq_ok.mp h
      rw [← Except.ok.inj (Prod.mk.inj h).1]
  | some response =>
      obtain ⟨elapsed, w, -, h⟩ := Op.bind_eq_ok.mp h
      obtain ⟨ms, x, -, h⟩ := Op.bind_eq_ok.mp h
      rw [← Except.ok.inj (Prod.mk.inj h).1]

theorem isRemote_executeRemote : IsRemote (executeRemote c maxWait r started others s).1 ↔
    Legible r c maxWait others s := by
  have hreported : (executeRemote c maxWait r started).Reported others s ↔
      Legible r c maxWait others s := reported_executeRemote
  rw [← hreported]
  rcases h : executeRemote c maxWait r started others s with ⟨e | o, t⟩
  · rw [Op.reported_of_eq h]
    constructor
    · rintro (⟨o, ho, -⟩ | ⟨e', he, hkind⟩) e'' he''
      · nomatch ho
      · rw [← Except.error.inj he'', Except.error.inj he]
        exact hkind
    · exact fun hall => .inr ⟨e, rfl, hall e rfl⟩
  · exact iff_of_true (.inl ⟨o, rfl, backend_executeRemote h⟩) (Op.reported_of_ok h)

/-- When no interpreter could be started for an execution and there is a judge, the execution comes
to a remote outcome or to a failure of the judge exactly when the judge keeps to what the client
relies on; anything else escapes as a failure of another kind. -/
theorem remote_iff_legible {e : Failure}
    (hacquire : Registry.acquire Contexts.onSweep (some r.key) others s = (.error e, t))
    (hkind : e.kind = .initialization) (hremote : t.setup.remote = some c)
    (consumed : Int → Op Unit) :
    IsRemote (execute Contexts.onSweep consumed r others s).1 ↔
      Legible r c t.setup.remoteMaxWait others t := by
  rw [execute_of_judge hacquire hkind hremote, isRemote_executeRemote]

/-- A judge that answers a submission with a list is not reported. -/
theorem remote_iff_legible_list : ∃ (r : Request) (s t : Sandbox) (e : Failure) (c : RemoteClient),
    Registry.acquire Contexts.onSweep (some r.key) (fun _ s => s) s = (.error e, t) ∧
    e.kind = .initialization ∧ t.setup.remote = some c ∧
    RemoteClient.heard (RemoteClient.upcoming t).ended = some (.arr [.int 1]) ∧
    ¬ IsRemote (execute Contexts.onSweep (fun _ => pure ()) r (fun _ s => s) s).1 := by
  let r : Request := { source := ⟨"", "", ""⟩, key := "k", values := [], timeout := .ofInt 10 }
  let s : Sandbox := { judged with
    remoteScript := [{ ended := some (.answer 201 (.json (.arr [.int 1]))) }] }
  obtain ⟨hfails, hremote⟩ :
      let acquired := Registry.acquire Contexts.onSweep (some r.key) (fun _ s => s) s
      Failure.hasKind .initialization acquired.1 = true ∧
        acquired.2.setup.remote.isSome = true := by
    decide +kernel
  obtain ⟨e, he, hkind⟩ := Failure.hasKind_iff.mp hfails
  obtain ⟨c, hc⟩ := Option.isSome_iff_exists.mp hremote
  have hscript := ((Registry.recalls_acquire (some r.key)).holds (fun _ s => s) s).remoteScript
  have hheard : RemoteClient.heard (RemoteClient.upcoming (Registry.acquire Contexts.onSweep
      (some r.key) (fun _ s => s) s).2).ended = some (.arr [.int 1]) := by
    rw [RemoteClient.upcoming, hscript]
    rfl
  refine ⟨r, s, _, e, c, Prod.ext he rfl, hkind, hc, hheard, fun hreported => ?_⟩
  obtain ⟨fields, hfields⟩ :=
    ((remote_iff_legible (Prod.ext he rfl) hkind hc fun _ => pure ()).mp hreported).object hheard
  nomatch hfields

end Execution

end Rerun
