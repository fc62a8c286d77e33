import Rerun.Proofs.Sandbox.Changes
import Rerun.Proofs.Sandbox.Composition

/-!
What becomes of the sandbox while time passes (`Sandbox.Passes`): processes go on or end, what
programs show is written down, the clock goes on and the judge is heard, but nothing comes or goes.
An operation that others have no part in and that does no more than that (`Op.Passes`) has nothing
to do with the tables of the engine, whatever it is that one asks about them.
-/

namespace Rerun

open Sandbox Op

/-- Two states that may differ in the processes, their handles and folders, and the clock. -/
structure Sandbox.SameTables (s t : Sandbox) : Prop where
  setup : t.setup = s.setup
  byInputs : t.byInputs = s.byInputs
  drawnIds : t.drawnIds = s.drawnIds
  seeds : t.seeds = s.seeds
  nextSeed : t.nextSeed = s.nextSeed
  records : t.records = s.records
  sessions : t.sessions = s.sessions
  engineSeeds : t.engineSeeds = s.engineSeeds
  otherSeeds : t.otherSeeds = s.otherSeeds
  runs : t.runs = s.runs
  contexts : t.contexts = s.contexts
  challengeTable : t.challengeTable = s.challengeTable
  challenges : t.challenges = s.challenges
  queues : t.queues = s.queues

namespace Sandbox.SameTables

variable {s t u : Sandbox}

theorem refl (s : Sandbox) : s.SameTables s :=
  ⟨rfl, rfl, rfl, rfl, rfl, rfl, rfl, rfl, rfl, rfl, rfl, rfl, rfl, rfl⟩

theorem trans (h : s.SameTables t) (h' : t.SameTables u) : s.SameTables u where
  setup := h'.setup.trans h.setup
  byInputs := h'.byInputs.trans h.byInputs
  drawnIds := h'.drawnIds.trans h.drawnIds
  seeds := h'.seeds.trans h.seeds
  nextSeed := h'.nextSeed.trans h.nextSeed
  records := h'.records.trans h.records
  sessions := h'.sessions.trans h.sessions
  engineSeeds := h'.engineSeeds.trans h.engineSeeds
  otherSeeds := h'.otherSeeds.trans h.otherSeeds
  runs := h'.runs.trans h.runs
  contexts := h'.contexts.trans h.contexts
  challengeTable := h'.challengeTable.trans h.challengeTable
  challenges := h'.challenges.trans h.challenges
  queues := h'.queues.trans h.queues

end Sandbox.SameTables

/-! ### Processes after a while -/

/-- A process that goes on, or ends: it stays where it works, it is not revived, and it gives no
other answers than those it was to give. -/
structure Child.Fades (y z : Child) : Prop where
  folder : z.folder = y.folder
  stubborn : z.script.stubborn = y.script.stubborn
  health {a : Health} : a ∈ z.script.health → a ∈ y.script.health
  alive : z.alive = true → y.alive = true

namespace Child.Fades

theorem refl (y : Child) : y.Fades y := ⟨rfl, rfl, id, id⟩

theorem trans {x y z : Child} (h : x.Fades y) (h' : y.Fades z) : x.Fades z where
  folder := h'.folder.trans h.folder
  stubborn := h'.stubborn.trans h.stubborn
  health := h.health ∘ h'.health
  alive := h.alive ∘ h'.alive

end Child.Fades

/-- Processes after a while: those that there were, and no others. -/
def Process.Fade (cs ds : List Child) : Prop :=
  ∀ ⦃c : Nat⦄ ⦃z : Child⦄, ds[c]? = some z → ∃ y, cs[c]? = some y ∧ y.Fades z

namespace Process.Fade

variable {cs ds es : List Child}

theorem refl (cs : List Child) : Fade cs cs := fun _ z h => ⟨z, h, .refl z⟩

theorem trans (h : Fade cs ds) (h' : Fade ds es) : Fade cs es := by
  intro c z hz
  obtain ⟨y, hy, hyz⟩ := h' hz
  obtain ⟨x, hx, hxy⟩ := h hy
  exact ⟨x, hx, hxy.trans hyz⟩

theorem modify_of_eq {i : Nat} {f : Child → Child} (hf : ∀ y, cs[i]? = some y → y.Fades (f y)) :
    Fade cs (cs.modify i f) := by
  intro c z hz
  obtain ⟨y, hy, rfl⟩ := Table.getElem?_modify_eq_some.mp hz
  refine ⟨y, hy, ?_⟩
  split
  · rename_i hi
    subst hi
    exact hf y hy
  · exact .refl y

theorem modify {i : Nat} {f : Child → Child} (hf : ∀ y, Child.Fades y (f y)) :
    Fade cs (cs.modify i f) :=
  modify_of_eq fun y _ => hf y

end Process.Fade

/-- A state after some time in which nobody gave a command. The processes have gone on or ended, and
no file that the registry relies on was written. -/
structure Sandbox.Passes (s t : Sandbox) : Prop where
  tables : s.SameTables t
  scripts : t.scripts = s.scripts
  handles : t.handles = s.handles
  children : Process.Fade s.children t.children
  places : t.children.map (·.folder) = s.children.map (·.folder)
  metadata : s.folders.Proper → t.folders.Proper

namespace Sandbox.Passes

variable {s t u : Sandbox}

theorem refl (s : Sandbox) : s.Passes s := ⟨.refl s, rfl, rfl, .refl _, rfl, id⟩

theorem trans (h : s.Passes t) (h' : t.Passes u) : s.Passes u where
  tables := h.tables.trans h'.tables
  scripts := h'.scripts.trans h.scripts
  handles := h'.handles.trans h.handles
  children := h.children.trans h'.children
  places := h'.places.trans h.places
  metadata := h'.metadata ∘ h.metadata

theorem modifyChild_of_eq (s : Sandbox) {i : Nat} {f : Child → Child}
    (hfolder : ∀ y, (f y).folder = y.folder) (hf : ∀ y, s.children[i]? = some y → y.Fades (f y)) :
    s.Passes { s with children := s.children.modify i f } :=
  { refl s with
    tables := { SameTables.refl s with }
    children := .modify_of_eq hf
    places := Table.map_modify hfolder _ _ }

theorem folders (s : Sandbox) {fs : Folders} (h : s.folders.Proper → fs.Proper) :
    s.Passes { s with folders := fs } :=
  { refl s with
    tables := { SameTables.refl s with }
    metadata := h }

theorem sane (h : s.Passes t) (hs : s.Sane) : t.Sane where
  session := by
    rw [h.tables.sessions, h.tables.records, h.tables.setup]
    exact hs.session
  listed := by
    rw [h.tables.sessions, h.tables.records]
    exact hs.listed
  single := by
    rw [h.tables.sessions]
    exact hs.single
  record := by
    rw [h.tables.records, h.handles]
    exact hs.record
  handle := by
    rw [h.handles]
    intro _ _ _ hx hc
    -- The process behind a handle works where it did, whatever else became of it.
    obtain ⟨y, hy, hfolder⟩ := hs.handle hx hc
    obtain ⟨z, hz, hzy⟩ := Table.getElem?_of_map_eq h.places hy
    exact ⟨z, hz, hzy.trans hfolder⟩
  metadata := h.metadata hs.metadata
  context := by
    rw [h.tables.contexts, h.tables.runs, h.tables.setup]
    exact hs.context
  challenge := by
    rw [h.tables.challenges, h.tables.challengeTable]
    exact hs.challenge
  challengeKey := by
    rw [h.tables.challengeTable]
    exact hs.challengeKey
  ids := by
    rw [h.tables.runs, h.tables.drawnIds]
    exact hs.ids

theorem sound (h : s.Passes t) (hs : s.Sound) : t.Sound :=
  { h.sane hs.toSane with
    claim := by
      rw [h.tables.sessions, h.tables.records, h.tables.contexts, h.tables.runs]
      exact hs.claim }

theorem meanwhile {alone : Prop} (h : s.Passes t) : Meanwhile alone s t := by
  have hs : Meanwhile alone s s := .refl s
  refine ⟨h.tables.setup, ?_, ?_, ?_, ?_, ?_, ?_, ?_⟩
  · rw [h.tables.records]
    exact hs.record
  · rw [h.tables.records]
    exact hs.unlocked
  · rw [h.handles]
    exact hs.handle
  · rw [h.tables.sessions]
    exact hs.session
  · rw [h.tables.runs]
    exact hs.run
  · rw [h.tables.runs]
    exact hs.landed
  · rw [h.tables.contexts, h.tables.sessions]
    exact hs.context

end Sandbox.Passes

/-! ### Operations -/

namespace Op

variable {α β : Type}

/-- An operation that others have no part in and that takes time, but does nothing to the tables. -/
def Passes (x : Op α) : Prop := ∀ s : Sandbox, ∃ r t, (∀ others, x others s = (r, t)) ∧ s.Passes t

namespace Passes

theorem of_still {x : Op α} (h : ∀ s, ∃ r, ∀ others, x others s = (r, s)) : Passes x := by
  intro s
  obtain ⟨r, hr⟩ := h s
  exact ⟨r, s, hr, .refl s⟩

theorem pure (a : α) : Passes (pure a) := of_still fun _ => ⟨_, fun _ => rfl⟩

theorem fail (e : Failure) : Passes (Op.fail e : Op α) := of_still fun _ => ⟨_, fun _ => rfl⟩

theorem ofExcept (r : Except Failure α) : Passes (Op.ofExcept r) := by
  cases r with
  | ok a => exact .pure a
  | error e => exact .fail e

theorem view (f : Sandbox → α) : Passes (Op.view f) := of_still fun _ => ⟨_, fun _ => rfl⟩

theorem need (find : Sandbox → Option α) : Passes (Sandbox.need find) :=
  of_still fun s => by
    unfold Sandbox.need
    cases find s with
    | none => exact ⟨_, fun _ => rfl⟩
    | some a => exact ⟨_, fun _ => rfl⟩

theorem change {f : Sandbox → Sandbox} (h : ∀ s : Sandbox, s.Passes (f s)) : Passes (Op.change f) :=
  fun s => ⟨.ok (), f s, fun _ => rfl, h s⟩

theorem bind {x : Op α} {f : α → Op β} (hx : Passes x) (hf : ∀ a, Passes (f a)) :
    Passes (x >>= f) := by
  intro s
  obtain ⟨e | a, t, heq, h⟩ := hx s
  · refine ⟨.error e, t, fun others => ?_, h⟩
    rw [bind_apply, heq]
  · obtain ⟨r, u, heq', h'⟩ := hf a t
    refine ⟨r, u, fun others => ?_, h.trans h'⟩
    rw [bind_apply, heq]
    exact heq' others

theorem chains : Chains fun x => x.Passes := ⟨.of_still, .bind⟩

theorem need_bind {find : Sandbox → Option α} {f : α → Op β}
    (hf : ∀ s a, find s = some a → ∃ r t, (∀ others, f a others s = (r, t)) ∧ s.Passes t) :
    Passes (Sandbox.need find >>= f) := by
  intro s
  cases ha : find s with
  | none =>
      refine ⟨.error (.other "KeyError"), s, fun others => ?_, .refl s⟩
      simp [bind_apply, Sandbox.need, ha]
  | some a =>
      obtain ⟨r, t, heq, ht⟩ := hf s a ha
      exact ⟨r, t, fun others => ((does_need ha).step f others).trans (heq others), ht⟩

theorem ofExcept_bind {r : Except Failure α} {f : α → Op β}
    (hf : ∀ a, r = .ok a → Passes (f a)) : Passes (Op.ofExcept r >>= f) := by
  cases r with
  | ok a => exact hf a rfl
  | error e => exact .fail e

theorem rescue {x : Op α} {other : Failure → Op α} (hx : Passes x)
    (hother : ∀ e, Passes (other e)) : Passes (Op.rescue x other) := by
  intro s
  unfold Op.rescue
  obtain ⟨e | a, t, heq, h⟩ := hx s
  · obtain ⟨r, u, heq', h'⟩ := hother e t
    refine ⟨r, u, fun others => ?_, h.trans h'⟩
    rw [heq]
    exact heq' others
  · refine ⟨.ok a, t, fun others => ?_, h⟩
    rw [heq]

theorem ite {p : Prop} [Decidable p] {x y : Op α} (hx : Passes x) (hy : Passes y) :
    Passes (if p then x else y) := by
  split
  · exact hx
  · exact hy

theorem setChild (i : Nat) {f : Child → Child} (hf : ∀ y, Child.Fades y (f y)) :
    Passes (Sandbox.setChild i f) :=
  .change fun s => .modifyChild_of_eq s (fun y => (hf y).folder) fun y _ => hf y

theorem updateFolder (p : Path) {f : Folder → Folder} (hf : ∀ g, (f g).metadata = g.metadata) :
    Passes (Op.change fun s => { s with folders := s.folders.update p f }) :=
  .change fun s => .folders s fun h => h.update fun g _ hj => .inl (hf g ▸ hj)

theorem reviseFolder (p : Path) {f : Folder → Folder} (hf : ∀ g, (f g).metadata = g.metadata) :
    Passes (Op.change fun s => { s with folders := s.folders.revise p f }) :=
  .change fun s => .folders s fun h => h.revise fun g _ hj => .inl (hf g ▸ hj)

theorem setClock (f : Sandbox → Int) : Passes (Op.change fun s => { s with clock := f s }) :=
  .change fun s => { Sandbox.Passes.refl s with tables := { SameTables.refl s with } }

theorem now : Passes Sandbox.now := .view _

theorem sleep (seconds : Binary64) : Passes (Sandbox.sleep seconds) := .setClock _

theorem apply {x : Op α} (h : Passes x) (others : Interrupts) (s : Sandbox) :
    s.Passes (x others s).2 := by
  obtain ⟨r, t, heq, ht⟩ := h s
  rw [heq]
  exact ht

theorem of_does {x : Op α} (h : Passes x) {s t : Sandbox} {a : α} (hx : x.Does s a t) :
    s.Passes t := by
  have ht := h.apply (fun _ s => s) s
  rwa [hx] at ht

end Passes

theorem Keeps.of_passes {alone : Prop} {x : Op α} (h : Passes x) : Keeps alone x := by
  intro s hs others others' _ _
  obtain ⟨r, t, heq, ht⟩ := h s
  rw [heq, heq]
  exact ⟨rfl, ht.sound hs, ht.meanwhile⟩

end Op

/-! ### Interpreter processes -/

namespace Process

theorem passes_poll (i : Nat) : (poll i).Passes :=
  .need_bind fun s y hy => by
    refine ⟨.ok (aliveAt y), _, fun _ => rfl, .modifyChild_of_eq s (fun _ => rfl) fun x hx => ?_⟩
    obtain rfl := Option.some.inj (hy.symm.trans hx)
    exact ⟨rfl, rfl, id, fun h => (Bool.and_eq_true_iff.mp h).1⟩

theorem passes_kill (i : Nat) : (kill i).Passes :=
  .setChild i fun _ => ⟨rfl, rfl, id, fun h => (Bool.and_eq_true_iff.mp h).1⟩

theorem passes_health (i : Nat) : (health i).Passes :=
  .need_bind fun s y hy => by
    cases ha : y.script.health with
    | nil => exact ⟨_, s, fun _ => rfl, .refl s⟩
    | cons a rest =>
        refine ⟨.ok a, _, fun _ => rfl, .modifyChild_of_eq s (fun _ => rfl) fun x hx => ?_⟩
        obtain rfl := Option.some.inj (hy.symm.trans hx)
        exact ⟨rfl, rfl, fun h => ha ▸ List.mem_cons_of_mem a h, id⟩

theorem serves_passes : Serves fun x => x.Passes where
  toChains := Op.Passes.chains
  take i _ := .setChild i fun _ => ⟨rfl, rfl, id, id⟩
  elapse _ := .setClock _
  learn i _ := .setChild i fun _ => ⟨rfl, rfl, id, id⟩
  crash i := .setChild i fun _ => ⟨rfl, rfl, id, nofun⟩
  seed _ := .change fun s => { Sandbox.Passes.refl s with tables := { SameTables.refl s with } }
  shown _ _ := .updateFolder _ fun _ => rfl

end Process

/-! ### Handles on interpreters -/

namespace Interpreter

theorem passes_kill (h : Nat) : (kill h).Passes := by
  refine .bind (.need _) fun x => ?_
  split
  · exact .pure _
  · exact .bind (Process.passes_poll _) fun alive => .ite (Process.passes_kill _) (.pure _)

theorem passes_probe (h : Nat) : (probe h).Passes := by
  refine .bind (.need _) fun x => ?_
  split
  · exact .pure _
  · refine .bind (Process.passes_poll _) fun alive => .ite (.pure _) ?_
    refine .bind (Process.passes_health _) fun answer => ?_
    split
    · exact .pure _
    · exact .pure _

end Interpreter

/-! ### The remote judge -/

theorem Cancel.passes_wait (c : Cancel) (seconds : Binary64) : (c.wait seconds).Passes := by
  intro s
  refine ⟨_, _, fun others => rfl, ?_⟩
  repeat' split
  all_goals exact { Sandbox.Passes.refl s with tables := { SameTables.refl s with } }

namespace RemoteClient

theorem passes_nextScripted : nextScripted.Passes := by
  intro s
  refine ⟨_, _, fun others => rfl, ?_⟩
  split
  · exact { Sandbox.Passes.refl s with tables := { SameTables.refl s with } }
  · exact .refl s

end RemoteClient

/-! ### The registry -/

namespace Registry

theorem passes_writeJournal (key : String) (entry : List (String × Json)) :
    (writeJournal key entry).Passes :=
  Passes.chains.writeJournal (fun _ _ => .reviseFolder _ fun _ => rfl) entry

theorem mergeMetadata_eq_obj {file : Option (Option Json)} {fields : List (String × Json)}
    {j : Json} (h : mergeMetadata file fields = .ok j) : ∃ all, j = .obj all := by
  unfold mergeMetadata at h
  split at h
  · exact ⟨_, (Except.ok.inj h).symm⟩
  · exact absurd h nofun
  · exact ⟨_, (Except.ok.inj h).symm⟩

theorem passes_writeMetadata (key : String) (fields : List (String × Json)) :
    (writeMetadata key fields).Passes := by
  refine .bind (.view _) fun s => .ite (.pure _) ?_
  split
  · exact .pure _
  · refine .bind (.need _) fun info => .ofExcept_bind fun merged hmerged => ?_
    -- What is written is an object, whatever was in the file before.
    refine .change fun s => .folders s fun h => ?_
    obtain ⟨all, rfl⟩ := mergeMetadata_eq_obj hmerged
    exact h.revise fun g j hj => .inr ⟨all, (Option.some.inj (Option.some.inj hj)).symm⟩

end Registry

end Rerun
