import Rerun.Proofs.Sandbox.Sound

/-!
Operations that keep the sandbox sound (`Op.Safe`), with one rule for each way of putting operations
together. Besides the state that an operation leaves, `Safe` speaks of the states in which it lets
other clients act: it only does so in sound ones, so that what the others do elsewhere makes no
difference.
-/

namespace Rerun

open Sandbox

def Interrupts.Tame (others : Interrupts) : Prop :=
  ∀ cmds s, s.Sound → (others cmds s).Sound ∧ Meanwhile False s (others cmds s)

/-- Two ways to act that differ in states at most that are not sound. -/
def Interrupts.Agree (others others' : Interrupts) : Prop :=
  ∀ cmds s, s.Sound → others cmds s = others' cmds s

namespace Op

variable {α β : Type} {alone strict : Prop} {s : Sandbox}

theorem bind_eq_ok {x : Op α} {f : α → Op β} {others : Interrupts} {b : β} {u : Sandbox} :
    (x >>= f) others s = (.ok b, u) ↔
      ∃ a t, x others s = (.ok a, t) ∧ f a others t = (.ok b, u) := by
  rw [bind_apply]
  rcases x others s with ⟨e | a, t⟩
  · refine ⟨nofun, ?_⟩
    rintro ⟨a, t', h, -⟩
    exact absurd (Prod.mk.inj h).1 nofun
  · refine ⟨fun h => ⟨a, t, rfl, h⟩, ?_⟩
    rintro ⟨a', t', h, h'⟩
    obtain ⟨ha, rfl⟩ := Prod.mk.inj h
    obtain rfl := Except.ok.inj ha
    exact h'

theorem bind_of_eq_ok {x : Op α} {others : Interrupts} {a : α} {t : Sandbox}
    (h : x others s = (.ok a, t)) (f : α → Op β) : (x >>= f) others s = f a others t := by
  rw [bind_apply, h]

theorem bind_of_eq_error {x : Op α} {others : Interrupts} {e : Failure} {t : Sandbox}
    (h : x others s = (.error e, t)) (f : α → Op β) : (x >>= f) others s = (.error e, t) := by
  rw [bind_apply, h]

theorem bind_congr {x x' : Op α} {others : Interrupts} {t : Sandbox}
    (h : x others s = x' others t) (f : α → Op β) :
    (x >>= f) others s = (x' >>= f) others t := by
  rw [bind_apply, bind_apply, h]

theorem bind_assoc {γ : Type} (x : Op α) (f : α → Op β) (g : β → Op γ) :
    x >>= f >>= g = x >>= fun a => f a >>= g := by
  funext others s
  rw [bind_apply, bind_apply, bind_apply]
  rcases x others s with ⟨_ | _, _⟩ <;> rfl

theorem view_eq_ok {f : Sandbox → α} {others : Interrupts} {a : α} {t : Sandbox}
    (h : Op.view f others s = (.ok a, t)) : a = f s ∧ t = s :=
  ⟨(Except.ok.inj (Prod.mk.inj h).1).symm, (Prod.mk.inj h).2.symm⟩

theorem need_eq_ok {find : Sandbox → Option α} {others : Interrupts} {a : α} {t : Sandbox}
    (h : Sandbox.need find others s = (.ok a, t)) : find s = some a ∧ t = s := by
  unfold Sandbox.need at h
  split at h
  · obtain ⟨ha, ht⟩ := Prod.mk.inj h
    rw [← Except.ok.inj ha]
    exact ⟨‹_›, ht.symm⟩
  · exact absurd (Prod.mk.inj h).1 nofun

theorem ofExcept_eq_ok {r : Except Failure α} {others : Interrupts} {a : α} {t : Sandbox}
    (h : Op.ofExcept r others s = (.ok a, t)) : r = .ok a ∧ t = s := by
  cases r with
  | ok b => exact ⟨(Prod.mk.inj h).1, (Prod.mk.inj h).2.symm⟩
  | error e => exact absurd (Prod.mk.inj h).1 nofun

/-- Whatever other clients do who keep the sandbox sound, an operation ends as `Q` says, and it has
let them act in sound states only. -/
def Ends (x : Op α) (s : Sandbox) (Q : Except Failure α → Sandbox → Prop) : Prop :=
  ∀ others others', others.Tame → others.Agree others' →
    x others s = x others' s ∧ Q (x others s).1 (x others s).2

/-- An operation that keeps a state sound and lets others act in sound states only. -/
def Safe (alone : Prop) (x : Op α) (s : Sandbox) : Prop :=
  x.Ends s fun _ t => t.Sound ∧ Meanwhile alone s t

/-- What an operation can give, and the state in which it then leaves the sandbox. -/
def Gives (x : Op α) (s : Sandbox) (a : α) (t : Sandbox) : Prop :=
  ∃ others : Interrupts, others.Tame ∧ x others s = (.ok a, t)

/-- An operation that gives a value whatever other clients do, and how it leaves the sandbox. -/
def Does (x : Op α) (s : Sandbox) (a : α) (t : Sandbox) : Prop := ∀ others, x others s = (.ok a, t)

theorem Does.bind {x : Op α} {f : α → Op β} {a : α} {b : β} {t u : Sandbox} (hx : x.Does s a t)
    (hf : (f a).Does t b u) : (x >>= f).Does s b u :=
  fun others => bind_eq_ok.mpr ⟨a, t, hx others, hf others⟩

/-- What comes after an operation whose outcome is known, also when it fails. -/
theorem Does.step {x : Op α} {a : α} {t : Sandbox} (hx : x.Does s a t) (f : α → Op β)
    (others : Interrupts) : (x >>= f) others s = f a others t :=
  bind_of_eq_ok (hx others) f

theorem does_pure (a : α) : (pure a : Op α).Does s a s := fun _ => rfl

theorem does_view (f : Sandbox → α) : (Op.view f).Does s (f s) s := fun _ => rfl

theorem does_change (f : Sandbox → Sandbox) : (Op.change f).Does s () (f s) := fun _ => rfl

theorem does_need {find : Sandbox → Option α} {a : α} (h : find s = some a) :
    (Sandbox.need find).Does s a s := by
  intro others
  unfold Sandbox.need
  rw [h]

namespace Gives

variable {t : Sandbox}

theorem view {f : Sandbox → α} {a : α} (h : (Op.view f).Gives s a t) : a = f s ∧ t = s := by
  obtain ⟨others, -, h⟩ := h
  exact view_eq_ok h

theorem change {f : Sandbox → Sandbox} {a : Unit} (h : (Op.change f).Gives s a t) : t = f s := by
  obtain ⟨others, -, h⟩ := h
  exact (Prod.mk.inj h).2.symm

theorem need {find : Sandbox → Option α} {a : α} (h : (Sandbox.need find).Gives s a t) :
    find s = some a ∧ t = s := by
  obtain ⟨others, -, h⟩ := h
  exact need_eq_ok h

theorem outcome {x : Op α} {a : α} (h : (Op.outcome x).Gives s (.ok a) t) : x.Gives s a t := by
  obtain ⟨others, ht, h⟩ := h
  obtain ⟨ha, hs⟩ := Prod.mk.inj h
  exact ⟨others, ht, Prod.ext (Except.ok.inj ha) hs⟩

end Gives

/-- An operation that is safe in every sound state. -/
def Keeps (alone : Prop) (x : Op α) : Prop := ∀ s : Sandbox, s.Sound → Safe alone x s

namespace Ends

variable {Q Q' : Except Failure α → Sandbox → Prop}

theorem mono {x : Op α} (h : x.Ends s Q) (hQ : ∀ r t, Q r t → Q' r t) : x.Ends s Q' :=
  fun others others' ht ha => (h others others' ht ha).imp_right (hQ _ _)

theorem of_apply {x : Op α} {r : Except Failure α} {t : Sandbox}
    (h : ∀ others, x others s = (r, t)) (hQ : Q r t) : x.Ends s Q := by
  intro others others' _ _
  rw [h, h]
  exact ⟨rfl, hQ⟩

theorem gives {x : Op α} (h : x.Ends s Q) :
    x.Ends s fun r t => Q r t ∧ ∀ a, r = .ok a → x.Gives s a t :=
  fun others others' ht ha => ⟨(h others others' ht ha).1, (h others others' ht ha).2,
    fun _ hr => ⟨others, ht, Prod.ext hr rfl⟩⟩

theorem bind {x : Op α} {f : α → Op β} {R : Except Failure β → Sandbox → Prop} (hx : x.Ends s Q)
    (hok : ∀ a t, Q (.ok a) t → (f a).Ends t R) (herror : ∀ e t, Q (.error e) t → R (.error e) t) :
    (x >>= f).Ends s R := by
  intro others others' ht ha
  obtain ⟨heq, hq⟩ := hx others others' ht ha
  rw [bind_apply, bind_apply, ← heq]
  rcases h : x others s with ⟨e | a, t⟩ <;> rw [h] at hq
  · exact ⟨rfl, herror e t hq⟩
  · exact hok a t hq others others' ht ha

theorem outcome {x : Op α} {R : Except Failure (Except Failure α) → Sandbox → Prop}
    (hx : x.Ends s Q) (hR : ∀ r t, Q r t → R (.ok r) t) : (Op.outcome x).Ends s R := by
  intro others others' ht ha
  obtain ⟨heq, hq⟩ := hx others others' ht ha
  refine ⟨?_, hR _ _ hq⟩
  unfold Op.outcome
  rw [heq]

theorem ensuring {x : Op α} {after : Op Unit} {R : Except Failure α → Sandbox → Prop}
    (hx : x.Ends s Q) (hafter : ∀ r t, Q r t → after.Ends t fun r' u => match r' with
      | .ok () => R r u
      | .error e => R (.error e) u) : (Op.ensuring x after).Ends s R := by
  intro others others' ht ha
  obtain ⟨heq, hq⟩ := hx others others' ht ha
  obtain ⟨heq', hq'⟩ := hafter _ _ hq others others' ht ha
  unfold Op.ensuring
  rw [← heq]
  dsimp only
  rw [← heq']
  rcases h : after others (x others s).2 with ⟨_ | _, t⟩ <;> rw [h] at hq' <;> exact ⟨rfl, hq'⟩

end Ends

namespace Safe

theorem of_still {x : Op α} (hs : s.Sound) (h : ∃ r, ∀ others, x others s = (r, s)) :
    Safe alone x s := by
  obtain ⟨r, hr⟩ := h
  intro others others' _ _
  rw [hr, hr]
  exact ⟨rfl, hs, .refl s⟩

theorem pure (hs : s.Sound) (a : α) : Safe alone (pure a) s := of_still hs ⟨_, fun _ => rfl⟩

theorem fail (hs : s.Sound) (e : Failure) : Safe alone (Op.fail e : Op α) s :=
  of_still hs ⟨_, fun _ => rfl⟩

theorem view (hs : s.Sound) (f : Sandbox → α) : Safe alone (Op.view f) s :=
  of_still hs ⟨_, fun _ => rfl⟩

theorem change {f : Sandbox → Sandbox} (h : (f s).Sound ∧ Meanwhile alone s (f s)) :
    Safe alone (Op.change f) s :=
  fun _ _ _ _ => ⟨rfl, h⟩

theorem interleave (hs : s.Sound) (cmds : List Command) : Safe False (Op.interleave cmds) s := by
  intro others others' ht hagree
  obtain ⟨hsound, hm⟩ := ht cmds s hs
  refine ⟨?_, hsound, hm⟩
  unfold Op.interleave
  rw [hagree cmds s hs]

theorem bind {x : Op α} {f : α → Op β} (hx : Safe strict x s) (ha : alone → strict)
    (hf : ∀ a t, t.Sound → Meanwhile strict s t → x.Gives s a t → Safe alone (f a) t) :
    Safe alone (x >>= f) s := by
  intro others others' ht hagree
  obtain ⟨heq, hsound, hm⟩ := hx others others' ht hagree
  rw [bind_apply, bind_apply, ← heq]
  rcases h : x others s with ⟨e | a, t⟩ <;> rw [h] at hsound hm
  · exact ⟨rfl, hsound, hm.weaken ha⟩
  · obtain ⟨heq', hsound', hm'⟩ := hf a t hsound hm ⟨others, ht, h⟩ others others' ht hagree
    exact ⟨heq', hsound', (hm.weaken ha).trans hm'⟩

/-- What nobody else has a part in comes before what others may have a part in. -/
theorem bind_alone {x : Op α} {f : α → Op β} (hx : Safe True x s)
    (hf : ∀ a t, t.Sound → Meanwhile True s t → x.Gives s a t → Safe alone (f a) t) :
    Safe alone (x >>= f) s :=
  hx.bind (fun _ => trivial) hf

theorem outcome {x : Op α} (hx : Safe alone x s) : Safe alone (Op.outcome x) s := by
  intro others others' ht hagree
  obtain ⟨heq, hsound, hm⟩ := hx others others' ht hagree
  refine ⟨?_, hsound, hm⟩
  unfold Op.outcome
  rw [heq]

theorem rescue {x : Op α} {other : Failure → Op α} (hx : Safe strict x s) (ha : alone → strict)
    (ho : ∀ e t, t.Sound → Meanwhile strict s t → Safe alone (other e) t) :
    Safe alone (Op.rescue x other) s := by
  intro others others' ht hagree
  obtain ⟨heq, hsound, hm⟩ := hx others others' ht hagree
  unfold Op.rescue
  rw [← heq]
  rcases h : x others s with ⟨e | a, t⟩ <;> rw [h] at hsound hm
  · obtain ⟨heq', hsound', hm'⟩ := ho e t hsound hm others others' ht hagree
    exact ⟨heq', hsound', (hm.weaken ha).trans hm'⟩
  · exact ⟨rfl, hsound, hm.weaken ha⟩

theorem ensuring {x : Op α} {after : Op Unit} (hx : Safe strict x s) (ha : alone → strict)
    (hafter : ∀ t, t.Sound → Meanwhile strict s t → Safe alone after t) :
    Safe alone (Op.ensuring x after) s := by
  intro others others' ht hagree
  obtain ⟨heq, hsound, hm⟩ := hx others others' ht hagree
  obtain ⟨heq', hsound', hm'⟩ := hafter _ hsound hm others others' ht hagree
  unfold Op.ensuring
  rw [← heq]
  dsimp only
  rw [← heq']
  rcases h : after others (x others s).2 with ⟨_ | _, t⟩ <;> rw [h] at hsound' hm' <;>
    exact ⟨rfl, hsound', (hm.weaken ha).trans hm'⟩

end Safe

namespace Keeps

theorem of_still {x : Op α} (h : ∀ s, ∃ r, ∀ others, x others s = (r, s)) : Keeps alone x :=
  fun s hs => .of_still hs (h s)

theorem pure (a : α) : Keeps alone (pure a) := fun _ hs => .pure hs a

theorem fail (e : Failure) : Keeps alone (Op.fail e : Op α) := fun _ hs => .fail hs e

theorem ofExcept (r : Except Failure α) : Keeps alone (Op.ofExcept r) := by
  cases r with
  | ok a => exact .pure a
  | error e => exact .fail e

theorem view (f : Sandbox → α) : Keeps alone (Op.view f) := fun _ hs => .view hs f

theorem need (find : Sandbox → Option α) : Keeps alone (Sandbox.need find) :=
  of_still fun s => by
    unfold Sandbox.need
    cases find s with
    | none => exact ⟨_, fun _ => rfl⟩
    | some a => exact ⟨_, fun _ => rfl⟩

theorem change {f : Sandbox → Sandbox}
    (h : ∀ s, s.Sound → (f s).Sound ∧ Meanwhile alone s (f s)) : Keeps alone (Op.change f) :=
  fun s hs => .change (h s hs)

theorem interleave (cmds : List Command) : Keeps False (Op.interleave cmds) :=
  fun _ hs => .interleave hs cmds

theorem bind {x : Op α} {f : α → Op β} (hx : Keeps alone x) (hf : ∀ a, Keeps alone (f a)) :
    Keeps alone (x >>= f) :=
  fun s hs => .bind (hx s hs) id fun a t ht _ _ => hf a t ht

theorem outcome {x : Op α} (hx : Keeps alone x) : Keeps alone (Op.outcome x) :=
  fun s hs => .outcome (hx s hs)

theorem rescue {x : Op α} {other : Failure → Op α} (hx : Keeps alone x)
    (ho : ∀ e, Keeps alone (other e)) : Keeps alone (Op.rescue x other) :=
  fun s hs => .rescue (hx s hs) id fun e t ht _ => ho e t ht

theorem ensuring {x : Op α} {after : Op Unit} (hx : Keeps alone x) (ha : Keeps alone after) :
    Keeps alone (Op.ensuring x after) :=
  fun s hs => .ensuring (hx s hs) id fun t ht _ => ha t ht

end Keeps

end Op

end Rerun
