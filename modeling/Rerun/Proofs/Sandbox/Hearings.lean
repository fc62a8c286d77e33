import Rerun.Proofs.Sandbox.FailedStarts
import Rerun.Proofs.Session.Transparency

/-!
What is heard of a request, whatever other clients do while it is on its way. The reply to it is one
that an interpreter gives, and it fails by losing its interpreter in one of four ways, or for a
reason that has nothing to do with a program (`Interpreter.meets_post`). Holding a session for the
request adds no other failure (`Registry.meets_holding`).

Operations are judged by what they give and how they fail (`Op.Meets`), with one rule for each way
of putting them together. What is known of a state is used up to the moment at which others act.
-/

namespace Rerun

open Sandbox Op

/-! ### The judgment -/

def Sandbox.Any (_ : Sandbox) : Prop := True

/-- Whatever others do, an operation that starts in a state as `I` says gives what `P` says, if it
gives anything, in a state as `J` says, and fails, if it does, as `E` says. -/
structure Op.Meets {α : Type} (I : Sandbox → Prop) (x : Op α) (P : α → Prop) (J : Sandbox → Prop)
    (E : Failure → Prop) : Prop where
  gives {others : Interrupts} {s t : Sandbox} {a : α} : I s → x others s = (.ok a, t) → P a ∧ J t
  fails {others : Interrupts} {s t : Sandbox} {e : Failure} : I s → x others s = (.error e, t) → E e

namespace Op.Meets

variable {α β : Type} {I J K : Sandbox → Prop} {P : α → Prop} {Q : β → Prop} {E E' : Failure → Prop}

theorem pure {a : α} (h : P a) : Meets I (Pure.pure a) P I E where
  gives hs hr := by
    obtain ⟨ha, rfl⟩ := Prod.mk.inj hr
    exact ⟨Except.ok.inj ha ▸ h, hs⟩
  fails _ hr := absurd (Prod.mk.inj hr).1 nofun

theorem fail {e : Failure} (h : E e) : Meets I (Op.fail e : Op α) P J E where
  gives _ hr := absurd (Prod.mk.inj hr).1 nofun
  fails _ hr := (fail_eq_error hr).1 ▸ h

theorem ofExcept {r : Except Failure α} (hok : ∀ a, r = .ok a → P a)
    (herror : ∀ e, r = .error e → E e) : Meets I (Op.ofExcept r) P I E := by
  cases r with
  | ok a => exact .pure (hok a rfl)
  | error e => exact .fail (herror e rfl)

theorem view (f : Sandbox → α) : Meets I (Op.view f) (fun _ => True) I E where
  gives hs hr := by
    obtain ⟨-, rfl⟩ := Prod.mk.inj hr
    exact ⟨trivial, hs⟩
  fails _ hr := absurd (Prod.mk.inj hr).1 nofun

theorem change {f : Sandbox → Sandbox} (hf : ∀ s, I s → J (f s)) :
    Meets I (Op.change f) (fun _ => True) J E where
  gives hs hr := by
    obtain ⟨-, rfl⟩ := Prod.mk.inj hr
    exact ⟨trivial, hf _ hs⟩
  fails _ hr := absurd (Prod.mk.inj hr).1 nofun

theorem of_fails {x : Op α} (hx : x.FailsAs E) : Meets I x (fun _ => True) Any E where
  gives _ _ := ⟨trivial, trivial⟩
  fails _ hr := hx hr

/-- How an operation fails does not depend on the state in which it starts, if nothing has to be
known of that. -/
theorem fails_as {x : Op α} (hx : Meets Any x P J E) : x.FailsAs E :=
    fun _ _ _ _ hr => hx.fails trivial hr

theorem need {find : Sandbox → Option α} (hE : ∀ name, E (.other name)) :
    Meets I (Sandbox.need find) (fun _ => True) I E where
  gives hs hr := ⟨trivial, (need_eq_ok hr).2 ▸ hs⟩
  fails _ hr := FailsAs.need hE find hr

theorem bind {x : Op α} {f : α → Op β} (hx : Meets I x P J E)
    (hf : ∀ a, P a → Meets J (f a) Q K E) : Meets I (x >>= f) Q K E where
  gives hs hr := by
    obtain ⟨a, t, hfirst, hrest⟩ := bind_eq_ok.mp hr
    obtain ⟨ha, ht⟩ := hx.gives hs hfirst
    exact (hf a ha).gives ht hrest
  fails hs hr := by
    obtain hfirst | ⟨a, t, hfirst, hrest⟩ := bind_eq_error.mp hr
    · exact hx.fails hs hfirst
    · obtain ⟨ha, ht⟩ := hx.gives hs hfirst
      exact (hf a ha).fails ht hrest

theorem after {x : Op α} {f : α → Op β} (hx : x.FailsAs E) (hf : ∀ a, Meets Any (f a) Q K E) :
    Meets I (x >>= f) Q K E :=
  .bind (.of_fails hx) fun a _ => hf a

theorem ite {p : Prop} [Decidable p] {x y : Op α} (hx : p → Meets I x P J E)
    (hy : ¬ p → Meets I y P J E) : Meets I (if p then x else y) P J E := by
  split
  · exact hx ‹_›
  · exact hy ‹_›

theorem outcome {x : Op α} (hx : Meets I x P J E) :
    Meets I (Op.outcome x) (fun r => (∀ a, r = .ok a → P a) ∧ ∀ e, r = .error e → E e) Any E' where
  gives {others s t r} hs hr := by
    obtain ⟨hresult, -⟩ := Prod.mk.inj hr
    obtain rfl := Except.ok.inj hresult
    exact ⟨⟨fun a ha => (hx.gives hs (Prod.ext ha rfl)).1,
      fun e he => hx.fails hs (Prod.ext he rfl)⟩, trivial⟩
  fails _ hr := absurd (Prod.mk.inj hr).1 nofun

theorem rescue {x : Op α} {other : Failure → Op α} (hx : Meets I x P J E)
    (hother : ∀ e, E e → Meets Any (other e) P Any E') : Meets I (Op.rescue x other) P Any E' where
  gives {others s t a} hs hr := by
    unfold Op.rescue at hr
    rcases hfirst : x others s with ⟨e | b, u⟩ <;> rw [hfirst] at hr
    · exact (hother e (hx.fails hs hfirst)).gives trivial hr
    · obtain ⟨hb, rfl⟩ := Prod.mk.inj hr
      obtain rfl := Except.ok.inj hb
      exact ⟨(hx.gives hs hfirst).1, trivial⟩
  fails {others s t e} hs hr := by
    unfold Op.rescue at hr
    rcases hfirst : x others s with ⟨e' | b, u⟩ <;> rw [hfirst] at hr
    · exact (hother e' (hx.fails hs hfirst)).fails trivial hr
    · exact absurd (Prod.mk.inj hr).1 nofun

theorem mono {P' : α → Prop} {x : Op α} (hx : Meets I x P J E) (hP : ∀ a, P a → P' a)
    (hE : ∀ e, E e → E' e) : Meets I x P' J E' where
  gives hs hr := ⟨hP _ (hx.gives hs hr).1, (hx.gives hs hr).2⟩
  fails hs hr := hE _ (hx.fails hs hr)

end Op.Meets

/-- What a sandbox and its mirror image have in common is true of the sandbox, and its answers stay
those of interpreters, when nobody else acts anyway. -/
theorem Op.Mirrors.meets {α : Type} {x : Op α} {P : α → α → Prop} {E : Failure → Prop}
    (hx : x.Mirrors Mirror.plain x P) (hdeaf : ∀ others others' s, x others s = x others' s)
    (hfails : x.FailsAs E) : x.Meets Genuine (fun a => ∃ b, P a b) Genuine E where
  gives {others s t a} hs hr := by
    -- The sandbox is taken for its own mirror image.
    have habsent : Interrupts.Absent fun _ s => s := fun _ _ => rfl
    obtain ⟨hresult, hstate⟩ := hx habsent (Mirror.Shows.self hs)
    rw [hdeaf _ others, hr] at hresult hstate
    cases hresult with
    | ok h => exact ⟨⟨_, h⟩, hstate.genuine⟩
  fails _ hr := hfails hr

/-! ### Failures -/

namespace Failure

/-- A failure that says nothing of a program: no interpreter is lost by it, and it is not that of a
challenge. -/
def IsAside (e : Failure) : Prop := e.losesInterpreter = false ∧ e.kind ≠ .challenge

theorem IsOther.aside {e : Failure} (h : e.IsOther) : e.IsAside := by
  obtain ⟨name, rfl⟩ := h
  exact ⟨rfl, nofun⟩

/-- The failures by which a request crashes, with the words that are those of the connection. -/
inductive IsCrash (path : String) : Failure → List String → Prop where
  | notRunning : IsCrash path .notRunning []
  | refused (status : Int) : IsCrash path (.answeredStatus status path) []
  | silent (reason shown : String) : IsCrash path (.stoppedResponding reason shown) [reason]

/-- The failures by which a request that may take so long loses its interpreter. -/
inductive IsLoss (path : String) (timeout : Binary64) : Failure → Prop where
  | late (shown : String) : IsLoss path timeout (.exceeded timeout shown)
  | crash {e : Failure} {words : List String} : e.IsCrash path words → IsLoss path timeout e

theorem IsLoss.loses {path : String} {timeout : Binary64} {e : Failure}
    (h : e.IsLoss path timeout) : e.losesInterpreter = true := by
  cases h with
  | late _ => rfl
  | crash hcrash => cases hcrash <;> rfl

theorem IsLoss.of_loses {path : String} {timeout : Binary64} {e : Failure}
    (h : e.IsAside ∨ e.IsLoss path timeout) (hlost : e.losesInterpreter = true) :
    e.IsLoss path timeout :=
  h.resolve_left fun haside => Bool.false_ne_true (haside.1.symm.trans hlost)

theorem IsAside.of_keeps {path : String} {timeout : Binary64} {e : Failure}
    (h : e.IsAside ∨ e.IsLoss path timeout) (hkept : ¬ e.losesInterpreter = true) : e.IsAside :=
  h.resolve_right fun hloss => hkept hloss.loses

end Failure

theorem Op.FailsAs.aside {α : Type} {x : Op α} (hx : x.FailsAs Failure.IsOther) :
    x.FailsAs Failure.IsAside :=
  hx.mono fun _ h => h.aside

/-! ### Requests -/

namespace Process

variable {A : Serving.Answer → Prop} {path : String} {body : Json}

/-- How a request ends to which an interpreter, if it answers, gives one of some answers. -/
inductive Yields (A : Serving.Answer → Prop) : Ended → Prop where
  | answered {a : Serving.Answer} : A a → Yields A (endedBy a)
  | refused {status : Int} (body : Body) : Interpreter.isSuccess status = false →
    Yields A (.answer status body)
  | interrupt : Yields A .interrupt
  | fault (f : LinkFault) : Yields A (.fault f)

theorem fails_nextScripted (i : Nat) (path : String) (body : Json) :
    (nextScripted i path body).FailsAs Failure.IsOther := by
  rw [nextScripted_eq]
  refine .bind (.view _) fun table => ?_
  split
  · exact .pure _
  · refine .bind (fails_need _) fun c => ?_
    split
    · exact .bind (.change _) fun _ => .pure _
    · exact .pure _

theorem meets_arrive (i : Nat) (path : String) (body : Json) :
    (arrive i path body).Meets Genuine Scripted.Genuine Any Failure.IsAside := by
  have hnote : Mirrors Mirror.plain (setChild i fun c =>
    { c with posts := c.posts ++ [(path, body)] })
      (setChild i fun c => { c with posts := c.posts ++ [(path, body)] }) Eq :=
    .setChild (fun y y' hy => by cases hy with | mk posts => exact .mk _) fun _ => id
  have hmirrors : Mirrors Mirror.plain (nextScripted i path body) (nextScripted i path body) _ :=
    mirrors_nextScripted i path rfl
  have hnext := hmirrors.meets (answers_recalls.nextScripted i path body).deaf
    (fails_nextScripted i path body).aside
  refine .bind (hnote.meets (fun _ _ _ => rfl) (.change _)) fun _ _ => .bind hnext fun a ha => ?_
  obtain ⟨b, -, hgenuine⟩ := ha
  exact .after (.change _) fun _ => .after (fun _ _ _ _ h => absurd (Prod.mk.inj h).1 nofun)
    fun _ => .pure hgenuine

theorem meets_react {a : Scripted} (ha : a.Genuine) (i : Nat)
    (hserve : (serve i path body).Meets Any (Yields A) Any Failure.IsAside) :
    (react i path body a).Meets Any (Yields A) Any Failure.IsAside := by
  have hwrite : (writeScripted i a).FailsAs Failure.IsAside := by
    unfold writeScripted
    split
    · exact .bind (fails_need _).aside fun _ => .change _
    · exact .pure _
  refine .after hwrite fun _ => ?_
  cases hended : a.ended with
  | none => exact hserve
  | some e =>
      refine .pure ?_
      cases e with
      | interrupt => exact .interrupt
      | fault f => exact .fault f
      | answer status body => exact .refused body (ha status body hended)

theorem meets_delivered {a : Serving.Answer} (h : A a) (i : Nat) :
    (delivered i a).Meets Any (Yields A) Any Failure.IsAside := by
  have hyields : Yields A (endedBy a) := .answered h
  cases a with
  | reply body => exact .pure hyields
  | refused status => exact .pure hyields
  | hung => exact .pure hyields
  | crashed => exact .after (.change _) fun _ => .pure hyields

theorem meets_homeless : (Op.view fun s => homeless s.setup).Meets Any (Yields A) Any
    Failure.IsAside where
  gives {others s t e} _ hr := by
    obtain ⟨he, -⟩ := Prod.mk.inj hr
    obtain rfl : homeless s.setup = e := Except.ok.inj he
    unfold homeless
    split
    · exact ⟨.refused _ rfl, trivial⟩
    · exact ⟨.fault _, trivial⟩
  fails _ hr := absurd (Prod.mk.inj hr).1 nofun

end Process

namespace Interpreter

variable {A : Serving.Answer → Prop} {path : String} {body : Json}

/-- A reply that is heard was given by the interpreter, and the failures are those of a request. -/
theorem meets_heard {ended : Ended} (h : Nat) (timeout : Binary64)
    (hyields : Process.Yields A ended) :
    (heard h path timeout ended).Meets Any (fun j => A (.reply j)) Any
      fun e => e.IsAside ∨ e.IsLoss path timeout := by
  have haside {e : Failure} (he : e.IsOther) : e.IsAside ∨ e.IsLoss path timeout := .inl he.aside
  have hshown : (shownOf h path).FailsAs fun e => e.IsAside ∨ e.IsLoss path timeout :=
    .ite (.bind ((fails_need _).mono fun _ => haside) fun _ => .view _) (.pure _)
  have hkill : (kill h).FailsAs fun e => e.IsAside ∨ e.IsLoss path timeout :=
    (fails_kill h).mono fun _ => haside
  have hfault (f : LinkFault) :
    (heard h path timeout (.fault f)).Meets Any (fun j => A (.reply j)) Any
      fun e => e.IsAside ∨ e.IsLoss path timeout := by
    cases f with
    | timeout message =>
        exact .after hkill fun _ => .after hshown fun shown => .fail (.inr (.late shown))
    | transport reason =>
        exact .after hshown fun shown => .after hkill fun _ =>
          .fail (.inr (.crash (.silent reason shown)))
    | protocol name message => exact .fail (haside ⟨name, rfl⟩)
  have hrefused {status : Int} (hstatus : isSuccess status = false) (body : Body) :
      (heard h path timeout (.answer status body)).Meets Any (fun j => A (.reply j)) Any
        fun e => e.IsAside ∨ e.IsLoss path timeout := by
    rw [heard, hstatus]
    exact .fail (.inr (.crash (.refused status)))
  cases hyields with
  | refused body hstatus => exact hrefused hstatus body
  | interrupt => exact .fail (.inl ⟨rfl, by decide⟩)
  | fault f => exact hfault f
  | @answered a ha =>
      cases a with
      | reply body => exact .pure ha
      | hung => exact hfault _
      | crashed => exact hfault _
      | refused status =>
          -- A refusal without a body is no reply either, be its status that of a success.
          cases hstatus : isSuccess status with
          | false => exact hrefused hstatus .absent
          | true =>
              rw [Process.endedBy, heard, hstatus]
              exact .fail (.inl ⟨rfl, by decide⟩)

/-- A request through a handle is answered by an interpreter, or it fails as requests do. -/
theorem meets_post (h : Nat) (timeout : Binary64)
    (hserve : ∀ i, (Process.serve i path body).Meets Any (Process.Yields A) Any Failure.IsAside) :
    (post h path body timeout).Meets Genuine (fun j => A (.reply j)) Any
      fun e => e.IsAside ∨ e.IsLoss path timeout := by
  have haddressee : (addressee h body).Meets Genuine (fun _ => True) Genuine
      fun e => e.IsAside ∨ e.IsLoss path timeout := by
    refine .bind (.need fun name => .inl ⟨rfl, nofun⟩) fun x _ => ?_
    split
    · exact .fail (.inr (.crash .notRunning))
    · exact .ite (fun _ => .fail (.inl ⟨rfl, nofun⟩)) fun _ => .pure trivial
  refine haddressee.bind fun c _ => ?_
  have hpost : (Process.post c path body).Meets Genuine (Process.Yields A) Any
      fun e => e.IsAside ∨ e.IsLoss path timeout := by
    -- Others act between the two, so that only what was scripted is known of the second.
    rw [Process.post]
    refine ((Process.meets_arrive c path body).bind fun a ha => ?_).mono (fun _ => id) fun _ => .inl
    exact Process.meets_react ha c (hserve c)
  exact hpost.bind fun ended hyields => meets_heard h timeout hyields

end Interpreter

/-! ### Sessions -/

namespace Registry

theorem fails_hold (key : String) : (hold key).FailsAs Failure.IsAside := by
  refine .bind (fun others s t e h => ?_) fun r => .bind (fails_need _).aside fun info =>
    .ite (.fail ⟨rfl, nofun⟩) (.bind (.change _) fun _ => .pure _)
  unfold get at h
  split at h
  · exact absurd (Prod.mk.inj h).1 nofun
  · rw [← Except.error.inj (Prod.mk.inj h).1]
    exact ⟨rfl, nofun⟩

theorem fails_release (key : String) (r : Nat) (how : Departure) :
    (release key r how).FailsAs Failure.IsOther := by
  cases how with
  | normal => exact .bind (.view _) fun now => .change _
  | lost => exact .bind (.change _) fun _ => fails_reset key
  | failed => exact .change _

/-- Holding a session for a request adds no failure that says something of a program. -/
theorem meets_holding {α : Type} {use : Nat → Op α} {P : α → Prop} {E : Failure → Prop}
    (key : String)
    (hE : ∀ e : Failure, e.IsAside → E e) (huse : ∀ h, (use h).Meets Genuine P Any E) :
    (holding key use).Meets Genuine P Any E := by
  have hhold : (hold key).Meets Genuine (fun _ => True) Genuine E := {
    gives := fun hs hr => by
      obtain ⟨x, -, -, -, rfl⟩ := hold_eq_ok hr
      exact ⟨trivial, { hs with }⟩
    fails := fun _ hr => hE _ (fails_hold key hr) }
  have hrelease (r : Nat) (how : Departure) : (release key r how).FailsAs E :=
    (fails_release key r how).mono fun e he => hE e he.aside
  refine hhold.bind fun r _ => .bind (.need fun name => hE _ ⟨rfl, nofun⟩) fun info _ => ?_
  -- However the use ends, the session is released before that is told.
  refine .bind (huse info.handle).outcome fun result hresult => ?_
  cases result with
  | ok a => exact .after (hrelease r _) fun _ => .pure (hresult.1 a rfl)
  | error e => exact .after (hrelease r _) fun _ => .fail (hresult.2 e rfl)

end Registry

/-! ### Starting an interpreter -/

namespace Interpreter

theorem fails_askUp (h c : Nat) (deadline : Binary64) :
    (askUp h c deadline).FailsAs Failure.IsAside := by
  refine .bind (fails_need _).aside fun x => .bind (.view _) fun now => .ite ?_ ?_
  · exact .bind (fails_reset h).aside fun _ => .fail ⟨rfl, nofun⟩
  · refine .bind (Process.fails_poll c).aside fun alive => .ite ?_ (Process.fails_health c).aside
    exact .bind (.view _) fun tail => .bind (fails_reset h).aside fun _ => .fail ⟨rfl, nofun⟩

theorem fails_verdict {a : Health} {said : Except Failure Unit} (h : verdict a = some said) :
    (Op.ofExcept said).FailsAs Failure.IsAside := by
  unfold verdict at h
  split at h
  · split at h
    · rw [← Option.some.inj h]
      exact .pure _
    · cases h
  · rw [← Option.some.inj h]
    exact .fail ⟨rfl, nofun⟩
  · cases h

theorem fails_awaitUp (h c : Nat) (deadline : Binary64) (pending : List Health) :
    (awaitUp h c deadline pending).FailsAs Failure.IsAside := by
  induction pending with
  | nil =>
      refine .bind (fails_askUp h c deadline) fun answer => ?_
      split
      · exact fails_verdict ‹_›
      · exact .pure _
  | cons a pending ih =>
      refine .bind (fails_askUp h c deadline) fun answer => ?_
      split
      · exact fails_verdict ‹_›
      · exact .bind (.change _) fun _ => ih

theorem fails_attach (h : Nat) (timeout : Binary64) (launched : Except String Nat) :
    (attach h timeout launched).FailsAs Failure.IsAside := by
  cases launched with
  | error reason => exact .bind (fails_reset h).aside fun _ => .fail ⟨rfl, nofun⟩
  | ok c =>
      exact .bind (.change _) fun _ => .bind (.view _) fun now => .bind (.view _) fun pending =>
        fails_awaitUp h c _ pending

theorem fails_launch {E : Failure → Prop} (folder : Path) : (Process.launch folder).FailsAs E := by
  refine .bind (.view _) fun index => .bind (.view _) fun script => .bind (.change _) fun _ => ?_
  split
  · exact .pure _
  · split
    · exact .pure _
    · exact .bind (.change _) fun _ => .pure _

theorem fails_start (h : Nat) : (start h).FailsAs Failure.IsAside :=
  .bind (fails_need _).aside fun _ => .ite (.fail ⟨rfl, nofun⟩) <|
    .bind (.view _) fun _ => .bind (.change _) fun _ => .bind (.change _) fun _ =>
      .bind (fails_launch _) fun launched => fails_attach h _ launched

end Interpreter

/-! ### Getting a session -/

namespace Registry

theorem fails_startTwice (folder : Path) (timeout : Binary64) (key : String) (attempts : Nat)
    (last : Failure) : (startTwice folder timeout key attempts last).FailsAs Failure.IsAside := by
  induction attempts generalizing last with
  | zero => exact .fail ⟨rfl, nofun⟩
  | succ attempts ih =>
      refine .bind (.bind (.view _) fun index => .bind (.change _) fun _ => .pure _) fun i => ?_
      have hstart : (Interpreter.start i).Meets Any (fun _ => True) Any Failure.IsAside :=
        .of_fails (Interpreter.fails_start i)
      refine (hstart.outcome.bind fun result hresult => .of_fails ?_).fails_as
      cases result with
      | ok _ => exact .bind (.view _) fun index => .bind (.change _) fun _ => .pure _
      | error e =>
          exact .ite (.bind (Interpreter.fails_reset i).aside fun _ => ih e)
            (.fail (hresult.2 e rfl))

theorem fails_register (key : String) : (register key).FailsAs Failure.IsAside := by
  have hfolder (setup : Setup) : (Op.ofExcept (folderOf setup key)).FailsAs Failure.IsAside :=
    .ofExcept fun e he => by
      unfold folderOf at he
      split at he
      · rw [← Except.error.inj he]
        exact ⟨rfl, nofun⟩
      · cases he
  exact .bind (.bind (.view _) fun setup => .bind (hfolder setup) fun folder =>
    fails_startTwice folder _ key 2 _) fun _ => .bind (.change _) fun _ => .pure _

theorem fails_enter (key : String) : (enter key).FailsAs Failure.IsAside :=
  .bind (fails_register key) fun _ => .bind (fails_need _).aside fun _ => .bind (.view _) fun _ =>
    .bind (fails_writeMetadata _ _).aside fun _ => (fails_writeJournal _ _).aside

theorem fails_provide (key : String) : (provide key).FailsAs Failure.IsAside := by
  refine .bind (.view _) fun found => ?_
  split
  · exact fails_enter key
  · exact .bind (fails_usable _).aside fun use => .ite (.pure _)
      (.bind (fails_reset key).aside fun _ => fails_enter key)

/-- To get a session takes no failure that says something of a program. -/
theorem fails_acquire (key : Option String) :
    (acquire Contexts.onSweep key).FailsAs Failure.IsAside :=
  .bind fails_sweep.aside fun _ => .bind (fails_keyFor key) fun k =>
    .bind (fails_provide k) fun _ => .pure _

theorem meets_acquire (key : Option String) : (acquire Contexts.onSweep key).Meets Genuine
    (fun _ => True) Genuine Failure.IsAside :=
  ((mirrors_acquire key).meets (recalls_acquire key).deaf (fails_acquire key)).mono
    (fun _ _ => trivial) fun _ => id

end Registry

end Rerun
