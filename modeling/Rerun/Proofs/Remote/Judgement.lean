import Rerun.Execution
import Rerun.Proofs.Sandbox.Answers

/-!
What the remote judge makes of a program. While nobody else acts, an execution at the judge depends
on the judge and the clock and on nothing else of the state. It gives an outcome, or fails as the
sandbox reports it, as long as what the judge sends can be read (`Execution.judged_executeRemote`).
-/

namespace Rerun

open Sandbox

/-- The judge as it is met: at which time, what it is going to do, and whether its shared client was
closed. -/
structure Judge where
  clock : Int
  script : List Scripted
  closed : Bool

def Sandbox.judge (s : Sandbox) : Judge := ⟨s.clock, s.remoteScript, s.remoteClosed⟩

def RemoteClient.IsToken (token : String) : Prop :=
  RemoteClient.isAddress ("/submissions/" ++ token) = true

/-- An answer of the judge that an execution can make something of: it is an object whose token, if
there is one, is a text that can stand in an address, and if it describes a final response, then one
with a readable time. -/
structure RemoteClient.UsablePayload (payload : Json) : Prop where
  token : ∃ fields, payload = .obj fields ∧ (((fields.lookup "token").getD .null).isFalsy = true ∨
    ∃ token, (fields.lookup "token").getD .null = .str token ∧ IsToken token)
  response {j : Json} : Shape.fit RemoteResponse.shape payload = .ok j →
    (RemoteResponse.ofFields j).finished = true →
    ∀ elapsed, ∃ ms, Execution.judgedMs (RemoteResponse.ofFields j).time elapsed = .ok ms

/-- Something that happens to a request to the judge, of which an execution can make something. -/
structure RemoteClient.Usable (a : Scripted) : Prop where
  ended : a.ended ≠ some .interrupt
  payload {status : Int} {body : Body} {j : Json} : a.ended = some (.answer status body) →
    Interpreter.isSuccess status = true → Interpreter.jsonOf body = .ok j → UsablePayload j

/-- The client can be used, and all that the judge is going to do is of a kind. -/
structure Judge.Fit (c : RemoteClient) (U : Scripted → Prop) (j : Judge) : Prop where
  isOpen : (c.shared && j.closed) = false
  script : ∀ a ∈ j.script, U a

/-- An operation that depends on the judge alone, while nobody else acts: it gives what `P` says, or
fails as the sandbox reports it. -/
def Op.Judged {α : Type} (c : RemoteClient) (U : Scripted → Prop) (x : Op α) (P : α → Prop) :
    Prop :=
  ∀ others : Interrupts, others.Absent → ∀ j : Judge, j.Fit c U → ∃ r j', Judge.Fit c U j' ∧
    (∀ s : Sandbox, s.judge = j → (x others s).1 = r ∧ (x others s).2.judge = j') ∧
    match r with
    | .ok a => P a
    | .error e => e.isSandbox = true

namespace Op.Judged

variable {α β : Type} {c : RemoteClient} {U : Scripted → Prop} {P : α → Prop} {Q : β → Prop}

theorem pure {a : α} (ha : P a) : Judged c U (pure a) P :=
  fun _ _ j hj => ⟨.ok a, j, hj, fun _ hs => ⟨rfl, hs⟩, ha⟩

theorem fail {e : Failure} (he : e.isSandbox = true) : Judged c U (Op.fail e) P :=
  fun _ _ j hj => ⟨.error e, j, hj, fun _ hs => ⟨rfl, hs⟩, he⟩

theorem ofExcept {r : Except Failure α} (hr : ∃ a, r = .ok a ∧ P a) :
    Judged c U (Op.ofExcept r) P := by
  obtain ⟨a, rfl, ha⟩ := hr
  exact .pure ha

theorem view {f : Sandbox → α} (g : Judge → α) (hg : ∀ s, f s = g s.judge)
    (hP : ∀ j, Judge.Fit c U j → P (g j)) : Judged c U (Op.view f) P := by
  refine fun _ _ j hj => ⟨.ok (g j), j, hj, fun s hs => ⟨?_, hs⟩, hP j hj⟩
  rw [← hs, ← hg]
  rfl

theorem change {f : Sandbox → Sandbox} (g : Judge → Judge) (hg : ∀ s, (f s).judge = g s.judge)
    (hfit : ∀ j, Judge.Fit c U j → (g j).Fit c U) :
    Judged c U (Op.change f) fun _ => True := by
  refine fun _ _ j hj => ⟨.ok (), g j, hfit j hj, fun s hs => ⟨rfl, ?_⟩, trivial⟩
  rw [← hs]
  exact hg s

theorem bind {x : Op α} {f : α → Op β} (hx : Judged c U x P)
    (hf : ∀ a, P a → Judged c U (f a) Q) : Judged c U (x >>= f) Q := by
  intro others ho j hj
  obtain ⟨r, j', hj', hr, hP⟩ := hx others ho j hj
  cases r with
  | error e =>
      refine ⟨.error e, j', hj', fun s hs => ?_, hP⟩
      obtain ⟨h₁, h₂⟩ := hr s hs
      rw [bind_apply]
      rcases h : x others s with ⟨_ | _, t⟩ <;> rw [h] at h₁ h₂
      · exact ⟨congrArg _ (Except.error.inj h₁), h₂⟩
      · cases h₁
  | ok a =>
      obtain ⟨r, k, hk, hr', hQ⟩ := hf a hP others ho j' hj'
      refine ⟨r, k, hk, fun s hs => ?_, hQ⟩
      obtain ⟨h₁, h₂⟩ := hr s hs
      rw [bind_apply]
      rcases h : x others s with ⟨_ | b, t⟩ <;> rw [h] at h₁ h₂
      · cases h₁
      · obtain rfl := Except.ok.inj h₁
        exact hr' t h₂

theorem interleave (commands : List Command) :
    Judged c U (Op.interleave commands) fun _ => True := by
  refine fun others ho j hj => ⟨.ok (), j, hj, fun s hs => ⟨rfl, ?_⟩, trivial⟩
  rw [Op.interleave, ho]
  exact hs

theorem ite {p : Prop} [Decidable p] {x y : Op α} (hx : Judged c U x P) (hy : Judged c U y P) :
    Judged c U (if p then x else y) P := by
  split
  · exact hx
  · exact hy

theorem now : Judged c U Sandbox.now fun _ => True :=
  .view (·.clock) (fun _ => rfl) fun _ _ => trivial

theorem elapsedMs (started : Int) : Judged c U (Sandbox.elapsedMs started) fun _ => True :=
  .bind .now fun _ _ => .pure trivial

end Op.Judged

namespace RemoteClient

open Execution Op

variable {c : RemoteClient} {U : Scripted → Prop}

theorem judged_ensureOpen : c.ensureOpen.Judged c U fun _ => True := by
  refine .bind (P := (· = false)) (.view (fun j => c.shared && j.closed) (fun _ => rfl)
    fun _ hj => hj.isOpen) fun closed hclosed => ?_
  rw [hclosed]
  exact .pure trivial

theorem judged_nextScripted (hnone : U { ended := some (.fault (.transport "script exhausted")) }) :
    nextScripted.Judged c U U := by
  intro others _ j hj
  cases hscript : j.script with
  | nil =>
      refine ⟨.ok _, j, hj, fun s hs => ?_, hnone⟩
      have hs' : s.remoteScript = [] := by
        rw [← hscript, ← hs]
        rfl
      unfold nextScripted
      rw [hs']
      exact ⟨rfl, hs⟩
  | cons a rest =>
      have hfit : Judge.Fit c U { j with script := rest } := { hj with
        script := fun b hb => hj.script b (hscript ▸ List.mem_cons_of_mem a hb) }
      refine ⟨.ok a, _, hfit, fun s hs => ?_, hj.script a (hscript ▸ List.mem_cons_self)⟩
      have hs' : s.remoteScript = a :: rest := by
        rw [← hscript, ← hs]
        rfl
      unfold nextScripted
      rw [hs', ← hs]
      exact ⟨rfl, rfl⟩

theorem judged_request (method path query : String) (body : Json) :
    (c.request method path query body).Judged c Usable UsablePayload := by
  refine .bind judged_ensureOpen fun _ _ => .bind (.change id (fun _ => rfl) fun _ => id)
    fun _ _ => .bind (judged_nextScripted ⟨nofun, nofun⟩) fun a ha => .bind (.change
    (fun j => { j with clock := j.clock + a.took }) (fun _ => rfl) fun _ hj => { hj with })
    fun _ _ => .bind (.interleave _) fun _ _ => ?_
  split
  · exact .fail rfl
  · rename_i hended
    exact absurd hended ha.ended
  · exact .fail rfl
  · rename_i status body hended
    split
    · rename_i hsuccess
      rw [Interpreter.readBody_eq]
      cases hbody : Interpreter.jsonOf body with
      | ok j => exact .pure (ha.payload hended hsuccess hbody)
      | error e => exact .fail rfl
    · exact .fail rfl

theorem judged_submit (source stdin : String) (expected : Option String) :
    (c.submit source stdin expected).Judged c Usable fun token =>
      ∃ text, token = .str text ∧ IsToken text := by
  refine .bind (judged_request _ _ _ _) fun payload hpayload => ?_
  obtain ⟨fields, rfl, htoken⟩ := hpayload.token
  dsimp only
  split
  · exact .fail rfl
  · rename_i hfalsy
    exact .pure (htoken.resolve_left hfalsy)

def Readable (response : RemoteResponse) : Prop :=
  ∀ elapsed, ∃ ms, judgedMs response.time elapsed = .ok ms

theorem judged_poll {token : String} (htoken : IsToken token) :
    (c.poll (.str token)).Judged c Usable fun response =>
      response.finished = true → Readable response := by
  have hname : (Value.ofJson (.str token)).text = token := rfl
  have haddress : ¬ (!isAddress ("/submissions/" ++ token)) = true := by
    rw [htoken]
    exact Bool.false_ne_true
  rw [poll, hname, if_neg haddress]
  refine .bind (judged_request _ _ _ _) fun payload hpayload => ?_
  split
  · rename_i hfit
    exact .pure (hpayload.response hfit)
  · exact .fail rfl

theorem judged_wait (seconds : Binary64) :
    (Cancel.noEvent.wait seconds).Judged c U (· = false) :=
  fun _ _ j hj => ⟨.ok false, { j with clock := j.clock + seconds.toMillis }, { hj with },
    fun _ hs => ⟨rfl, hs ▸ rfl⟩, rfl⟩

theorem judged_pollUntil {token : String} (htoken : IsToken token) (deadline : Binary64)
    (fuel : Nat) : (c.pollUntil (.str token) deadline .noEvent fuel).Judged c Usable fun polled =>
      ∀ response, polled = .response response → Readable response := by
  induction fuel with
  | zero => exact .pure fun _ h => nomatch h
  | succ fuel ih =>
      refine .bind .now fun t _ => .ite (.pure fun _ h => nomatch h) (.bind (P := fun _ => True)
        (.view (fun j => decide ((none : Option Int) = some j.clock)) (fun _ => rfl)
          fun _ _ => trivial) fun _ _ => .ite (.pure fun _ h => nomatch h) ?_)
      refine .bind (judged_poll htoken) fun response hresponse => ?_
      split
      · rename_i hfinished
        exact .pure fun _ h => Polled.response.inj h ▸ hresponse hfinished
      · exact .bind (judged_wait _) fun _ _ => .ite (.pure fun _ h => nomatch h) ih

theorem readable_outOfTime (token : String) : Readable (.outOfTime token) :=
  fun elapsed => ⟨elapsed, rfl⟩

theorem judged_execute (source stdin : String) (expected : Option String) (maxWait : Binary64) :
    (c.execute source stdin expected maxWait .noEvent).Judged c Usable fun answer =>
      ∀ response, answer = some response → Readable response := by
  refine .bind (judged_submit _ _ _) fun token htoken => ?_
  obtain ⟨text, rfl, htext⟩ := htoken
  refine .bind .now fun t _ =>
    .bind (P := fun _ => True)
      (.view (fun j => j.script.length + 2) (fun _ => rfl) fun _ _ => trivial) fun fuel _ =>
      .bind (judged_pollUntil htext _ _) fun polled hpolled => ?_
  split
  · rename_i response
    exact .pure fun _ h => Option.some.inj h ▸ hpolled response rfl
  · exact .pure fun _ h => nomatch h
  · exact .pure fun _ h => nomatch h
  · exact .pure fun _ h => Option.some.inj h ▸ readable_outOfTime text

end RemoteClient

/-- What comes of an execution at the judge depends on the judge alone. -/
theorem Execution.judged_executeRemote (c : RemoteClient) (maxWait : Binary64) {r : Request}
    (hcancel : r.cancel = .noEvent) (started : Int) :
    (executeRemote c maxWait r started).Judged c RemoteClient.Usable fun _ => True := by
  rw [executeRemote, hcancel]
  refine .bind (RemoteClient.judged_execute _ _ _ _) fun answer hanswer => ?_
  split
  · exact .bind (.elapsedMs _) fun _ _ => .pure trivial
  · rename_i response
    refine .bind (.elapsedMs _) fun elapsed _ => ?_
    obtain ⟨ms, hms⟩ := hanswer response rfl elapsed
    exact .bind (P := fun _ => True) (.ofExcept ⟨ms, hms, trivial⟩) fun _ _ => .pure trivial

end Rerun
