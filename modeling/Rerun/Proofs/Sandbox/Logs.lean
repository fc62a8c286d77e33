import Rerun.Proofs.Sandbox.Folders
import Rerun.Proofs.Sandbox.Guards
import Rerun.Execution

/-!
What leaves the logs of sessions alone (`Op.Unlogged`). Journals and metadata are written by the
registry only, when a session is started, noted and taken down. Interpreters start, run and stop in
the same folders, and the folders on the way to them are made, without a line in either file.
-/

namespace Rerun

open Sandbox

/-! ### The files of a session -/

namespace Folders

def journal (fs : Folders) (p : Path) : List Json := ((fs.find? p).bind (·.journal)).getD []

def metadata (fs : Folders) (p : Path) : Option (Option Json) := (fs.find? p).bind (·.metadata)

/-- Two states of the folders in which the files of all sessions are the same. -/
def SameFiles (fs gs : Folders) : Prop :=
  ∀ q, gs.journal q = fs.journal q ∧ gs.metadata q = fs.metadata q

variable {fs gs hs : Folders} {p q : Path} {f : Folder → Folder}

theorem SameFiles.refl (fs : Folders) : fs.SameFiles fs := fun _ => ⟨rfl, rfl⟩

theorem SameFiles.trans (h : fs.SameFiles gs) (h' : gs.SameFiles hs) : fs.SameFiles hs :=
  fun q => ⟨(h' q).1.trans (h q).1, (h' q).2.trans (h q).2⟩

theorem sameFiles_make (fs : Folders) (p : Path) : fs.SameFiles (fs.make p) := by
  intro q
  simp only [journal, metadata, find?_make]
  cases fs.find? q with
  | some g => exact ⟨rfl, rfl⟩
  | none =>
      rw [Option.none_or]
      split
      · exact ⟨rfl, rfl⟩
      · exact ⟨rfl, rfl⟩

theorem sameFiles_update (fs : Folders) (p : Path)
    (hf : ∀ g, (f g).journal = g.journal ∧ (f g).metadata = g.metadata) :
    fs.SameFiles (fs.update p f) := by
  intro q
  simp only [journal, metadata, find?_update]
  split
  · cases fs.find? q with
    | none => exact ⟨rfl, rfl⟩
    | some g => simp [(hf g).1, (hf g).2]
  · exact ⟨rfl, rfl⟩

theorem sameFiles_revise (fs : Folders) (p : Path)
    (hf : ∀ g, (f g).journal = g.journal ∧ (f g).metadata = g.metadata) :
    fs.SameFiles (fs.revise p f) :=
  (fs.sameFiles_make p).trans (sameFiles_update _ p hf)

theorem find?_revise_self (fs : Folders) (p : Path) (f : Folder → Folder) :
    (fs.revise p f).find? p = some (f ((fs.find? p).getD {})) := by
  rw [revise, find?_update, if_pos rfl, find?_make, if_pos (mem_lineage p)]
  cases fs.find? p <;> rfl

theorem find?_revise_of_ne (fs : Folders) (f : Folder → Folder) (h : q ≠ p) :
    (fs.revise p f).find? q = (fs.make p).find? q := by
  rw [revise, find?_update, if_neg h]

theorem journal_revise_self (fs : Folders) (p : Path) (line : Json) :
    (fs.revise p fun g => { g with journal := some (g.journal.getD [] ++ [line]) }).journal p =
      fs.journal p ++ [line] := by
  rw [journal, find?_revise_self, journal]
  cases fs.find? p <;> rfl

theorem metadata_revise_self (fs : Folders) (p : Path) (j : Json) :
    (fs.revise p fun g => { g with metadata := some (some j) }).metadata p = some (some j) := by
  rw [metadata, find?_revise_self]
  rfl

theorem files_revise_of_ne (fs : Folders) (f : Folder → Folder) (h : q ≠ p) :
    (fs.revise p f).journal q = fs.journal q ∧ (fs.revise p f).metadata q = fs.metadata q := by
  rw [journal, metadata, find?_revise_of_ne fs f h]
  exact sameFiles_make fs p q

theorem journal_revise (fs : Folders) (p q : Path) (hf : ∀ g, (f g).journal = g.journal) :
    (fs.revise p f).journal q = fs.journal q := by
  by_cases hq : q = p
  · subst hq
    rw [journal, find?_revise_self, Option.bind_some, hf, journal]
    cases fs.find? q <;> rfl
  · exact (files_revise_of_ne fs f hq).1

theorem metadata_revise (fs : Folders) (p q : Path) (hf : ∀ g, (f g).metadata = g.metadata) :
    (fs.revise p f).metadata q = fs.metadata q := by
  by_cases hq : q = p
  · subst hq
    rw [metadata, find?_revise_self, Option.bind_some, hf, metadata]
    cases fs.find? q <;> rfl
  · exact (files_revise_of_ne fs f hq).2

end Folders

/-- Two states with the same settings and the same registered sessions, whose records stand for the
same folders and as many executions, and with the same journals and metadata. New records stand for
no executions. -/
structure Sandbox.SameLogs (s t : Sandbox) : Prop where
  setup : t.setup = s.setup
  sessions : t.sessions = s.sessions
  record {r : Nat} {x : Record} : s.records[r]? = some x →
    ∃ y, t.records[r]? = some y ∧ y.folder = x.folder ∧ y.executions = x.executions
  fresh {r : Nat} {y : Record} : s.records[r]? = none → t.records[r]? = some y → y.executions = 0
  files : s.folders.SameFiles t.folders

namespace Sandbox.SameLogs

variable {s t u : Sandbox}

theorem refl (s : Sandbox) : s.SameLogs s where
  setup := rfl
  sessions := rfl
  record h := ⟨_, h, rfl, rfl⟩
  fresh h h' := absurd (h.symm.trans h') nofun
  files := .refl _

theorem trans (h : s.SameLogs t) (h' : t.SameLogs u) : s.SameLogs u where
  setup := h'.setup.trans h.setup
  sessions := h'.sessions.trans h.sessions
  record hx := by
    obtain ⟨y, hy, hfolder, hcount⟩ := h.record hx
    obtain ⟨z, hz, hfolder', hcount'⟩ := h'.record hy
    exact ⟨z, hz, hfolder'.trans hfolder, hcount'.trans hcount⟩
  fresh {r z} hs hz := by
    cases ht : t.records[r]? with
    | none => exact h'.fresh ht hz
    | some y =>
        obtain ⟨z', hz', -, hcount⟩ := h'.record ht
        obtain rfl : z' = z := Option.some.inj (hz'.symm.trans hz)
        exact hcount.trans (h.fresh hs ht)
  files := h.files.trans h'.files

theorem addRecord (s : Sandbox) (x : Record) (hx : x.executions = 0) :
    s.SameLogs { s with records := s.records ++ [x] } :=
  { refl s with
    record := fun {r y} hy => by
      have hlt := (List.getElem?_eq_some_iff.mp hy).1
      exact ⟨y, (List.getElem?_append_left hlt).trans hy, rfl, rfl⟩
    fresh := fun {r y} hnone hy => by
      rw [List.getElem?_append_right (List.getElem?_eq_none_iff.mp hnone)] at hy
      exact (List.mem_singleton.mp (List.mem_of_getElem? hy)) ▸ hx }

instance : IsPreorder Sandbox SameLogs where
  refl := .refl
  trans _ _ _ := .trans

end Sandbox.SameLogs

namespace Op

variable {α β : Type}

/-- An operation that nobody else has a part in and that leaves the logs of sessions alone. -/
abbrev Unlogged (x : Op α) : Prop := x.Along SameLogs

namespace Along

theorem unloggedChild (i : Nat) (f : Child → Child) : (Sandbox.setChild i f).Unlogged :=
  .change fun s => { SameLogs.refl s with }

theorem unloggedHandle (i : Nat) (f : Handle → Handle) : (Sandbox.setHandle i f).Unlogged :=
  .change fun s => { SameLogs.refl s with }

theorem unloggedRecord (r : Nat) {f : Record → Record}
    (hf : ∀ x, (f x).folder = x.folder ∧ (f x).executions = x.executions) :
    (Sandbox.setRecord r f).Unlogged := by
  refine .change fun s => { SameLogs.refl s with
    record := fun {i x} hx => ⟨_, Table.getElem?_modify_eq_some.mpr ⟨x, hx, rfl⟩, ?_⟩
    fresh := fun h h' => absurd ((Table.getElem?_modify_eq_none.mpr h).symm.trans h') nofun }
  split
  · exact hf x
  · exact ⟨rfl, rfl⟩

theorem unloggedClock (f : Sandbox → Int) : (Op.change fun s => { s with clock := f s }).Unlogged :=
  .change fun s => { SameLogs.refl s with }

theorem unloggedFolders {f : Sandbox → Folders}
    (hf : ∀ s : Sandbox, s.folders.SameFiles (f s)) :
    (Op.change fun s => { s with folders := f s }).Unlogged :=
  .change fun s => { SameLogs.refl s with files := hf s }

end Along

end Op

open Op

theorem Process.serves_unlogged : Process.Serves fun x => x.Unlogged where
  toChains := Along.chains
  take i _ := .unloggedChild i _
  elapse _ := .unloggedClock _
  learn i _ := .unloggedChild i _
  crash i := .unloggedChild i _
  seed _ := .change fun s => { SameLogs.refl s with }
  shown _ _ := .unloggedFolders fun s => s.folders.sameFiles_update _ fun _ => ⟨rfl, rfl⟩

/-! ### Sessions that are started and looked at -/

namespace Registry

/-- A session that is started is not registered yet, and nothing is written of it. -/
theorem pervades_unlogged : PervadesStarts fun x => x.Unlogged where
  toChains := Along.chains
  child i _ _ := .unloggedChild i _
  spawn _ _ _ := .change fun s => { SameLogs.refl s with }
  openLog _ := .unloggedFolders fun s => s.folders.sameFiles_revise _ fun _ => ⟨rfl, rfl⟩
  writeLog _ _ := .unloggedFolders fun s => s.folders.sameFiles_update _ fun _ => ⟨rfl, rfl⟩
  handle := .unloggedHandle
  addHandle _ _ := .change fun s => { SameLogs.refl s with }
  sleep _ := .unloggedClock _
  outcome := .outcome
  enlist _ _ := .change fun s => .addRecord s _ rfl
  record := .unloggedRecord

theorem unlogged_keyFor (key : Option String) : (keyFor key).Unlogged :=
  Along.chains.keyFor ⟨fun _ _ _ => rfl, fun _ s => { SameLogs.refl s with }⟩ key

end Registry

/-! ### Sweeps -/

namespace Contexts

theorem unlogged_onSweep (key : String) : (onSweep key).Unlogged := by
  have hforget (owner : SeedOwner) (runId : String) : (Seeds.forget owner runId).Unlogged := by
    refine .change fun s => ?_
    cases owner with
    | engine => exact { SameLogs.refl s with }
    | other => exact { SameLogs.refl s with }
  exact Along.chains.onSweep
    (fun _ _ => Along.chains.forgetRun (.change fun s => { SameLogs.refl s with }) hforget)
    (fun _ => Along.chains.forgetChallenge (.change fun s => { SameLogs.refl s with })
      fun _ => .change fun s => { SameLogs.refl s with })
    (.change fun s => { SameLogs.refl s with })

end Contexts

end Rerun
