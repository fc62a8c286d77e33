import Rerun.Proofs.Sandbox.Requests

/-!
Starting interpreters and taking them down keeps the sandbox sound. These are the operations that do
more than that time passes: processes come, and handles are turned to them and away from them.
-/

namespace Rerun

open Sandbox Op

variable {alone : Prop}

namespace Op.Keeps

theorem setHandle (i : Nat) {f : Handle → Handle} (hf : ∀ x, (f x).folder = x.folder)
    (hc : ∀ x c, (f x).child = some c → x.child = some c) : Keeps alone (Sandbox.setHandle i f) :=
  .change fun _ hs => hs.modifyHandle i hf fun x c _ h => .inl (hc x c h)

theorem drawId : Keeps alone Sandbox.drawId := by
  intro s hs others others' _ _
  refine ⟨rfl, { hs with ids := ?_ }, { Meanwhile.refl s with }⟩
  obtain ⟨ns, hns, hsorted, hle⟩ := hs.ids
  exact ⟨ns, hns, hsorted, fun n hn => Nat.le_succ_of_le (hle n hn)⟩

theorem drawSeed : Keeps alone Sandbox.drawSeed := by
  intro s hs others others' _ _
  unfold Sandbox.drawSeed
  refine ⟨rfl, ?_⟩
  split
  · exact ⟨{ hs with }, { Meanwhile.refl s with }⟩
  · exact ⟨{ hs with }, { Meanwhile.refl s with }⟩

theorem now : Keeps alone Sandbox.now := .view _

end Op.Keeps

namespace Process

theorem keeps_launch (folder : Path) : (launch folder).Keeps alone := by
  refine .bind (.view _) fun index => .bind (.view _) fun script => .bind ?_ fun _ => ?_
  · refine .change fun s hs => ?_
    obtain ⟨hs', hm⟩ : _ ∧ Meanwhile alone s _ := hs.addChild
      { script, folder, alive := script.spawnFailure.isNone }
    exact ⟨{ hs' with }, { hm with }⟩
  · split
    · exact .pure _
    · split
      · exact .pure _
      · exact .bind (.of_passes (.updateFolder _ fun _ => rfl)) fun _ => .pure _

/-- A process that was started is the last one, and works in the folder it was given. -/
theorem gives_launch {folder : Path} {s t : Sandbox} {c : Nat}
    (h : (launch folder).Gives s (.ok c) t) :
    t.handles = s.handles ∧ ∃ y, t.children[c]? = some y ∧ y.folder = folder := by
  obtain ⟨others, -, h⟩ := h
  unfold launch at h
  simp only [bind_apply, Op.view, Op.change] at h
  rcases hspawn : (s.scripts.headD {}).spawnFailure with _ | reason <;>
    simp only [hspawn, pure_apply] at h
  · rcases hlog : (s.scripts.headD {}).log with _ | log <;>
      simp only [hlog, pure_apply, bind_apply, Op.change] at h <;>
      obtain ⟨hc, rfl⟩ := Prod.mk.inj h <;> obtain rfl := Except.ok.inj (Except.ok.inj hc) <;>
      exact ⟨rfl, _, List.getElem?_concat_length, rfl⟩
  · exact absurd (Except.ok.inj (Prod.mk.inj h).1) nofun

end Process

namespace Interpreter

theorem keeps_create (folder : Path) (timeout : Binary64) : (create folder timeout).Keeps alone :=
  .bind (.view _) fun _ => .bind (.change fun _ hs => hs.addHandle rfl) fun _ => .pure _

theorem keeps_reset (h : Nat) : (reset h).Keeps alone :=
  .bind (.of_passes (passes_kill h)) fun _ => .setHandle h (fun _ => rfl) nofun

theorem keeps_awaitUp (h c : Nat) (deadline : Binary64) (pending : List Health) :
    (awaitUp h c deadline pending).Keeps alone :=
  Keeps.chains.awaitUp (Keeps.chains.askUp (.of_passes (Process.passes_poll c))
    (.of_passes (Process.passes_health c)) (keeps_reset h) deadline)
    (fun _ => .of_passes (.sleep _)) pending

theorem keeps_start (h : Nat) : (start h).Keeps alone := by
  intro s hs
  refine .bind (Keeps.need _ s hs) id fun x s₁ hs₁ _ hx => ?_
  obtain ⟨hx, rfl⟩ := hx.need
  split
  · exact .fail hs₁ _
  refine .bind (.view hs₁ _) id fun port s₂ hs₂ _ hg => ?_
  obtain ⟨-, rfl⟩ := hg.view
  refine .bind (Keeps.of_passes (.reviseFolder _ fun _ => by rfl) _ hs₂) id fun _ s₃ hs₃ _ hg => ?_
  obtain rfl := hg.change
  refine .bind (Keeps.setHandle h (fun _ => by rfl) (fun _ _ hc => by exact hc) _ hs₃) id
    fun _ s₄ hs₄ _ hg => ?_
  obtain rfl := hg.change
  refine .bind (Process.keeps_launch x.folder _ hs₄) id fun launched s₅ hs₅ _ hg => ?_
  cases launched with
  | error reason => exact Keeps.bind (keeps_reset h) (fun _ => .fail _) _ hs₅
  | ok c =>
      obtain ⟨hhandles, y, hy, hfolder⟩ := Process.gives_launch hg
      refine .bind (.change (hs₅.modifyHandle h (fun _ => by rfl) fun z c' hz hc => ?_)) id
        fun _ s₆ hs₆ _ _ => ?_
      · obtain rfl := Option.some.inj hc
        refine .inr ⟨y, hy, hfolder.trans ?_⟩
        rw [hhandles, Table.getElem?_modify_eq_some] at hz
        obtain ⟨w, hw, rfl⟩ := hz
        obtain rfl := Option.some.inj (hx.symm.trans hw)
        rw [if_pos rfl]
      · exact Keeps.bind .now (fun _ => .bind (.view _) fun _ => keeps_awaitUp h c _ _) _ hs₆

end Interpreter

end Rerun
