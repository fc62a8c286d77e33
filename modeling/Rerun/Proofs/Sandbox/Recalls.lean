import Mathlib.Algebra.GroupWithZero.Nat
import Mathlib.Order.Defs.Unbundled
import Rerun.Contexts
import Rerun.Proofs.Sandbox.Requests

/-!
What no program has a part in, and no other client. While sessions are swept, taken down and
started, and while an answer is on its way back from an interpreter, nobody else acts (`Op.Deaf`),
no seed is applied, no process is asked to run a program and the judge is not asked; of the
challenges, only how far they are played can change (`Op.Recalls`).
-/

namespace Rerun

open Sandbox

/-- A challenge apart from how far it is played. -/
def Challenge.unplayed (c : Challenge) : Challenge :=
  { key := c.key, timeout := c.timeout, source := c.source }

def Sandbox.runsAsked (s : Sandbox) : Nat :=
  (s.children.map fun c => c.posts.countP (·.1 = "/run")).sum

theorem Sandbox.runsAsked_modify (s : Sandbox) (i : Nat) {f : Child → Child}
    (hf : ∀ c, (f c).posts = c.posts) :
    Sandbox.runsAsked { s with children := s.children.modify i f } = s.runsAsked := by
  unfold runsAsked
  rw [Table.map_modify fun c => by rw [hf c]]

/-- Two states with the same settings and the same seed in force, the same judge, who was asked
nothing, and the same challenges apart from how far they are played. No process was asked to run a
program, and in folders where no program had shown anything, none has. -/
structure Sandbox.Recalls (s t : Sandbox) : Prop where
  setup : t.setup = s.setup
  appliedSeed : t.appliedSeed = s.appliedSeed
  remoteScript : t.remoteScript = s.remoteScript
  remoteClosed : t.remoteClosed = s.remoteClosed
  remoteRequests : t.remoteRequests = s.remoteRequests
  challengeTable : t.challengeTable.map Challenge.unplayed = s.challengeTable.map Challenge.unplayed
  shown {p : Path} : s.folders.Lacks (·.shown) p → t.folders.Lacks (·.shown) p
  runsAsked : t.runsAsked = s.runsAsked

namespace Sandbox.Recalls

variable {s t u : Sandbox}

theorem refl (s : Sandbox) : s.Recalls s := ⟨rfl, rfl, rfl, rfl, rfl, rfl, id, rfl⟩

theorem trans (h : s.Recalls t) (h' : t.Recalls u) : s.Recalls u where
  setup := h'.setup.trans h.setup
  appliedSeed := h'.appliedSeed.trans h.appliedSeed
  remoteScript := h'.remoteScript.trans h.remoteScript
  remoteClosed := h'.remoteClosed.trans h.remoteClosed
  remoteRequests := h'.remoteRequests.trans h.remoteRequests
  challengeTable := h'.challengeTable.trans h.challengeTable
  shown := h'.shown ∘ h.shown
  runsAsked := h'.runsAsked.trans h.runsAsked

theorem challenge (h : s.Recalls t) {i : Nat} {c : Challenge} (hc : s.challengeTable[i]? = some c) :
    ∃ d, t.challengeTable[i]? = some d ∧ d.unplayed = c.unplayed := by
  have hi := congrArg (·[i]?) h.challengeTable
  simp only [List.getElem?_map, hc, Option.map_some] at hi
  exact Option.map_eq_some_iff.mp hi

end Sandbox.Recalls

namespace Op

variable {α β : Type} {R : Sandbox → Sandbox → Prop} [IsPreorder Sandbox R]

/-- An operation that nobody else has a part in, and along which a relation between an earlier and a
later state holds. -/
structure Along (R : Sandbox → Sandbox → Prop) (x : Op α) : Prop where
  deaf (others others' : Interrupts) (s : Sandbox) : x others s = x others' s
  holds (others : Interrupts) (s : Sandbox) : R s (x others s).2

instance : IsPreorder Sandbox fun _ _ => True where
  refl _ := trivial
  trans _ _ _ _ _ := trivial

/-- An operation that nobody else has a part in. -/
abbrev Deaf (x : Op α) : Prop := x.Along fun _ _ => True

namespace Along

omit [IsPreorder Sandbox R] in
theorem mono {x : Op α} {R' : Sandbox → Sandbox → Prop} (h : x.Along R)
    (hR : ∀ s t, R s t → R' s t) : x.Along R' :=
  ⟨h.deaf, fun others s => hR _ _ (h.holds others s)⟩

omit [IsPreorder Sandbox R] in
theorem isDeaf {x : Op α} (h : x.Along R) : x.Deaf := h.mono fun _ _ _ => trivial

omit [IsPreorder Sandbox R] in
theorem change {f : Sandbox → Sandbox} (h : ∀ s, R s (f s)) : (Op.change f).Along R :=
  ⟨fun _ _ _ => rfl, fun _ s => h s⟩

theorem of_still {x : Op α} (h : ∀ s, ∃ r, ∀ others, x others s = (r, s)) : x.Along R where
  deaf others others' s := by
    obtain ⟨r, hr⟩ := h s
    exact (hr others).trans (hr others').symm
  holds others s := by
    obtain ⟨r, hr⟩ := h s
    rw [hr]
    exact refl_of R s

theorem pure (a : α) : (pure a : Op α).Along R := of_still fun _ => ⟨_, fun _ => rfl⟩

theorem fail (e : Failure) : (Op.fail e : Op α).Along R := of_still fun _ => ⟨_, fun _ => rfl⟩

theorem ofExcept (r : Except Failure α) : (Op.ofExcept r).Along R := by
  cases r with
  | ok a => exact .pure a
  | error e => exact .fail e

theorem view (f : Sandbox → α) : (Op.view f).Along R := of_still fun _ => ⟨_, fun _ => rfl⟩

theorem need (find : Sandbox → Option α) : (Sandbox.need find).Along R :=
  of_still fun s => by
    unfold Sandbox.need
    cases find s with
    | none => exact ⟨_, fun _ => rfl⟩
    | some a => exact ⟨_, fun _ => rfl⟩

theorem bind {x : Op α} {f : α → Op β} (hx : x.Along R) (hf : ∀ a, (f a).Along R) :
    (x >>= f).Along R where
  deaf others others' s := by
    rw [bind_apply, bind_apply, hx.deaf others others']
    rcases x others' s with ⟨e | a, t⟩
    · rfl
    · exact (hf a).deaf others others' t
  holds others s := by
    have h := hx.holds others s
    rw [bind_apply]
    rcases hr : x others s with ⟨e | a, t⟩ <;> rw [hr] at h
    · exact h
    · exact trans_of R h ((hf a).holds others t)

theorem rescue {x : Op α} {other : Failure → Op α} (hx : x.Along R)
    (hother : ∀ e, (other e).Along R) : (Op.rescue x other).Along R where
  deaf others others' s := by
    unfold Op.rescue
    rw [hx.deaf others others']
    rcases x others' s with ⟨e | a, t⟩
    · exact (hother e).deaf others others' t
    · rfl
  holds others s := by
    have h := hx.holds others s
    unfold Op.rescue
    rcases hr : x others s with ⟨e | a, t⟩ <;> rw [hr] at h
    · exact trans_of R h ((hother e).holds others t)
    · exact h

omit [IsPreorder Sandbox R] in
theorem outcome {x : Op α} (hx : x.Along R) : (Op.outcome x).Along R where
  deaf others others' s := by
    unfold Op.outcome
    rw [hx.deaf others others']
  holds others s := hx.holds others s

omit [IsPreorder Sandbox R] in
theorem ite {p : Prop} [Decidable p] {x y : Op α} (hx : x.Along R) (hy : y.Along R) :
    (if p then x else y).Along R := by
  split
  · exact hx
  · exact hy

theorem chains : Chains fun x => x.Along R := ⟨.of_still, .bind⟩

end Along

theorem Passes.isDeaf {x : Op α} (h : x.Passes) : x.Deaf where
  deaf others others' s := by
    obtain ⟨r, t, heq, -⟩ := h s
    exact (heq others).trans (heq others').symm
  holds _ _ := trivial

end Op

instance : IsPreorder Sandbox Sandbox.Recalls where
  refl := Sandbox.Recalls.refl
  trans _ _ _ := Sandbox.Recalls.trans

namespace Op

/-- An operation after which the seed in force, the judge and the challenges are as before, and
which shows nothing. -/
abbrev Recalls {α : Type} (x : Op α) : Prop := x.Along Sandbox.Recalls

namespace Along

theorem setChild (i : Nat) {f : Child → Child} (hf : ∀ c, (f c).posts = c.posts) :
    (Sandbox.setChild i f).Recalls :=
  .change fun s => { Sandbox.Recalls.refl s with runsAsked := s.runsAsked_modify i hf }

theorem setHandle (i : Nat) (f : Handle → Handle) : (Sandbox.setHandle i f).Recalls :=
  .change fun s => { Sandbox.Recalls.refl s with }

theorem setRecord (i : Nat) (f : Record → Record) : (Sandbox.setRecord i f).Recalls :=
  .change fun s => { Sandbox.Recalls.refl s with }

theorem setChallenge (i : Nat) {f : Challenge → Challenge}
    (hf : ∀ c, (f c).unplayed = c.unplayed) : (Sandbox.setChallenge i f).Recalls :=
  .change fun s => { Sandbox.Recalls.refl s with challengeTable := Table.map_modify hf _ _ }

theorem setClock (f : Sandbox → Int) : (Op.change fun s => { s with clock := f s }).Recalls :=
  .change fun s => { Sandbox.Recalls.refl s with }

theorem drawId : Sandbox.drawId.Recalls :=
  ⟨fun _ _ _ => rfl, fun _ s => { Sandbox.Recalls.refl s with }⟩

theorem updateFolder (p : Path) {f : Folder → Folder} (hf : ∀ g, (f g).shown = g.shown) :
    (Op.change fun s => { s with folders := s.folders.update p f }).Recalls :=
  .change fun s => { Sandbox.Recalls.refl s with
    shown := fun h => h.update fun _ => hf }

theorem reviseFolder (p : Path) {f : Folder → Folder} (hf : ∀ g, (f g).shown = g.shown) :
    (Op.change fun s => { s with folders := s.folders.revise p f }).Recalls :=
  .change fun s => { Sandbox.Recalls.refl s with
    shown := fun h => h.revise rfl fun _ => hf }

end Along

end Op

open Op

/-! ### Processes -/

theorem Process.answers_recalls : Process.Answers fun x => x.Recalls where
  toChains := Op.Along.chains
  take i _ := .setChild i fun _ => rfl
  elapse _ := .setClock _
  learn i _ := .setChild i fun _ => rfl
  crash i := .setChild i fun _ => rfl

/-! ### Sessions -/

theorem Registry.pervades_recalls : Registry.Pervades fun x => x.Recalls where
  toChains := Op.Along.chains
  child := .setChild
  spawn _ _ _ := .change fun s => { Sandbox.Recalls.refl s with
    runsAsked := by simp [Sandbox.runsAsked] }
  openLog _ := .reviseFolder _ fun _ => rfl
  writeLog _ _ := .updateFolder _ fun _ => rfl
  handle := .setHandle
  addHandle _ _ := .change fun s => { Sandbox.Recalls.refl s with }
  sleep _ := .setClock _
  outcome := .outcome
  enlist _ _ := .change fun s => { Sandbox.Recalls.refl s with }
  record r _ _ := .setRecord r _
  journal _ _ := .reviseFolder _ fun _ => rfl
  metadata _ _ := .reviseFolder _ fun _ => rfl
  sessions _ := .change fun s => { Sandbox.Recalls.refl s with }
  remove _ := .change fun s => { Sandbox.Recalls.refl s with shown := fun h => h.remove _ }
  count r := .setRecord r _

/-! ### Sweeps -/

namespace Contexts

theorem recalls_forget (owner : SeedOwner) (runId : String) :
    (Seeds.forget owner runId).Recalls :=
  .change fun s => by cases owner <;> exact { Sandbox.Recalls.refl s with }

theorem recalls_onSweep (key : String) : (onSweep key).Recalls :=
  Op.Along.chains.onSweep
    (fun _ _ => Op.Along.chains.forgetRun (.change fun s => { Sandbox.Recalls.refl s with })
      recalls_forget)
    (fun _ => Op.Along.chains.forgetChallenge (.change fun s => { Sandbox.Recalls.refl s with })
      fun i => .setChallenge i fun _ => rfl)
    (.change fun s => { Sandbox.Recalls.refl s with })

end Contexts

namespace Registry

theorem recalls_sweep : (sweep Contexts.onSweep).Recalls :=
  pervades_recalls.sweep pervades_recalls.resetSession Contexts.recalls_onSweep

theorem recalls_acquire (key : Option String) : (acquire Contexts.onSweep key).Recalls :=
  .bind recalls_sweep fun _ => .bind (pervades_recalls.keyFor .drawId key) fun key =>
    .bind (pervades_recalls.provide key) fun _ => .pure _

end Registry

end Rerun
