import Rerun.Proofs.Sandbox.Tables

/-!
The registry of sessions keeps the sandbox sound. A session is held between two changes that other
clients could not make, so that holding is one step here: it is safe for a run only as long as the
run is in flight.
-/

namespace Rerun

open Sandbox Op

variable {alone : Prop}

namespace Op.Keeps

theorem setRecord (i : Nat) {f : Record → Record}
    (hf : ∀ x, (f x).handle = x.handle ∧ (f x).folder = x.folder ∧ (f x).locked = x.locked)
    (hbusy : ∀ x, (f x).state = x.state) : Keeps alone (Sandbox.setRecord i f) :=
  .change fun _ hs => hs.modifyRecord i hf fun x hx h => hx (hbusy x ▸ h)

end Op.Keeps

namespace Registry

theorem keeps_reset (key : String) : (reset key).Keeps alone :=
  Keeps.chains.resetSession (fun _ => .of_passes (passes_writeJournal _ _))
    (fun _ => .of_passes (passes_writeMetadata _ _)) (.change fun _ hs => hs.dropSession key)
    Interpreter.keeps_reset fun _ => .change fun _ hs => hs.folders (hs.metadata.remove _)

theorem keeps_note (key : String) (entry : Json) : (note key entry).Keeps alone :=
  Keeps.chains.note (fun r => .setRecord r (fun _ => ⟨rfl, rfl, rfl⟩) fun _ => rfl)
    (fun _ => .of_passes (passes_writeJournal _ _)) (fun _ => .of_passes (passes_writeMetadata _ _))
    entry

theorem keeps_sweep {listener : String → Op Unit} (hl : ∀ key, (listener key).Keeps alone) :
    (sweep listener).Keeps alone :=
  Keeps.chains.sweep keeps_reset hl

/-! ### Starting sessions -/

theorem keeps_startTwice (folder : Path) (timeout : Binary64) (key : String) (attempts : Nat)
    (last : Failure) : (startTwice folder timeout key attempts last).Keeps alone := by
  induction attempts generalizing last with
  | zero => exact .fail _
  | succ attempts ih =>
      intro s hs
      refine .bind (Interpreter.keeps_create folder timeout s hs) id fun h s₁ hs₁ _ hg => ?_
      have hx : ∃ x, s₁.handles[h]? = some x ∧ x.folder = folder := by
        obtain ⟨others, -, hg⟩ := hg
        obtain ⟨hh, rfl⟩ := Prod.mk.inj hg
        obtain rfl := Except.ok.inj hh
        exact ⟨_, List.getElem?_concat_length, rfl⟩
      obtain ⟨x, hx, hfolder⟩ := hx
      refine .bind (.outcome (Interpreter.keeps_start h s₁ hs₁)) id fun started s₂ hs₂ hm _ => ?_
      obtain ⟨y, hy, hfolder'⟩ := hm.handle hx
      cases started with
      | ok _ =>
          refine .bind (.view hs₂ _) id fun index s₃ hs₃ _ hg => ?_
          obtain ⟨-, rfl⟩ := hg.view
          refine .bind (.change (hs₃.addRecord nofun rfl ⟨y, hy, hfolder'.trans hfolder⟩)) id
            fun _ s₄ hs₄ _ _ => .pure hs₄ _
      | error e =>
          dsimp only
          split
          · exact Keeps.bind (Interpreter.keeps_reset h) (fun _ => ih e) s₂ hs₂
          · exact .fail hs₂ e

theorem startTwice_eq_ok {folder : Path} {timeout : Binary64} {key : String} {attempts : Nat}
    {last : Failure} {others : Interrupts} {s t : Sandbox} {r : Nat}
    (h : startTwice folder timeout key attempts last others s = (.ok r, t)) :
    r = s.records.length ∧ ∃ x, t.records = s.records ++ [x] ∧ x.folder = folder ∧
      x.state = .ready ∧ x.locked = false ∧ s.SameTables { t with records := s.records } := by
  induction attempts generalizing last s with
  | zero => exact absurd (Prod.mk.inj h).1 nofun
  | succ attempts ih =>
      obtain ⟨i, s₁, hcreate, h⟩ := bind_eq_ok.mp h
      have hs₁ : s.SameTables s₁ :=
        (Interpreter.pervades_onProcesses.create folder timeout).of_eq hcreate
      obtain ⟨started, s₂, hstart, h⟩ := bind_eq_ok.mp h
      have hs₂ : s.SameTables s₂ :=
        hs₁.trans ((Interpreter.pervades_onProcesses.start i).outcome.of_eq hstart)
      cases started with
      | ok _ =>
          obtain ⟨hr, rfl⟩ := Prod.mk.inj h
          refine ⟨?_, _, congrArg (· ++ _) hs₂.records, rfl, rfl, rfl, { hs₂ with records := rfl }⟩
          rw [← Except.ok.inj hr]
          exact congrArg List.length hs₂.records
      | error e =>
          dsimp only at h
          split at h
          · obtain ⟨_, s₃, hreset, h⟩ := bind_eq_ok.mp h
            have hs₃ : s.SameTables s₃ :=
              hs₂.trans ((Interpreter.pervades_onProcesses.reset i).of_eq hreset)
            obtain ⟨hr, x, hx, hfolder, hstate, hlocked, hsame⟩ := ih h
            rw [hs₃.records] at hr hx
            refine ⟨hr, x, hx, hfolder, hstate, hlocked, hs₃.trans ?_⟩
            exact { hsame with records := hs₃.records.symm }
          · exact absurd (Prod.mk.inj h).1 nofun

theorem keeps_start (key : String) : (start key).Keeps alone :=
  .bind (.view _) fun _ => .bind (.ofExcept _) fun _ => keeps_startTwice _ _ _ _ _

theorem start_eq_ok {key : String} {others : Interrupts} {s t : Sandbox} {r : Nat}
    (h : start key others s = (.ok r, t)) :
    r = s.records.length ∧ ∃ x, t.records = s.records ++ [x] ∧
      folderOf s.setup key = .ok x.folder ∧ x.state = .ready ∧ x.locked = false ∧
      s.SameTables { t with records := s.records } := by
  obtain ⟨setup, s₁, hview, h⟩ := bind_eq_ok.mp h
  obtain ⟨hsetup, rfl⟩ := Prod.mk.inj hview
  obtain rfl := Except.ok.inj hsetup
  obtain ⟨folder, s₂, hfolder, h⟩ := bind_eq_ok.mp h
  rcases hf : folderOf s.setup key with e | p <;> dsimp only [id] at hfolder <;>
    rw [hf] at hfolder
  · exact absurd (Prod.mk.inj hfolder).1 nofun
  · obtain ⟨hp, rfl⟩ := Prod.mk.inj hfolder
    obtain rfl := Except.ok.inj hp
    obtain ⟨hr, x, hx, rfl, hrest⟩ := startTwice_eq_ok h
    exact ⟨hr, x, hx, rfl, hrest⟩

/-- A session is registered as soon as it is started, while its record is new. -/
theorem keeps_register (key : String) : (register key).Keeps alone := by
  intro s hs
  refine Ends.bind (.gives (keeps_start key s hs)) (fun r t hrt => ?_) fun _ _ h => h.1
  obtain ⟨⟨ht, hm⟩, hg⟩ := hrt
  obtain ⟨others, -, hg⟩ := hg r rfl
  obtain ⟨hr, x, hx, hfolder, -, hlocked, hsame⟩ := start_eq_ok hg
  have hrecord : t.records[r]? = some x := by
    rw [hx, hr, List.getElem?_concat_length]
  have hfresh : s.records[r]? = none := List.getElem?_eq_none (Nat.le_of_eq hr.symm)
  have hsessions : t.sessions = s.sessions := hsame.sessions
  refine .of_apply (fun _ => rfl) (ht.putSession hm hrecord hlocked ?_ hfresh ?_)
  · rw [hm.setup]
    exact hfolder
  · intro k hk
    rw [hsessions] at hk
    obtain ⟨y, hy, -⟩ := hs.session hk
    exact absurd (hfresh.symm.trans hy) nofun

theorem keeps_enter (key : String) : (enter key).Keeps alone :=
  Keeps.chains.enter (keeps_register key) (fun _ => .of_passes (passes_writeMetadata _ _))
    fun _ => .of_passes (passes_writeJournal _ _)

theorem keeps_usable (r : Nat) : (usable r).Keeps alone :=
  Keeps.chains.usable (fun h => .of_passes (Interpreter.passes_probe h))
    fun _ => .setRecord r (fun _ => ⟨rfl, rfl, rfl⟩) fun _ => rfl

theorem keeps_provide (key : String) : (provide key).Keeps alone :=
  Keeps.chains.provide (keeps_enter key) keeps_usable (keeps_reset key)

theorem keeps_acquire {listener : String → Op Unit} (hl : ∀ key, (listener key).Keeps alone)
    (key : Option String) : (acquire listener key).Keeps alone :=
  .bind (keeps_sweep hl) fun _ => .bind (Keeps.chains.keyFor .drawId key) fun key =>
    .bind (keeps_provide key) fun _ => .pure _

/-! ### Holding a session -/

/-- A key that is not that of a context, or whose context has a run in flight. -/
def Claimed (key : String) (s : Sandbox) : Prop :=
  ∀ c, key = Contexts.runKey c → ∃ i y, s.contexts.lookup c = some i ∧ s.runs[i]? = some y ∧
    y.inFlight = true

def Free (key : String) (s : Sandbox) : Prop :=
  ∀ ⦃r x⦄, s.sessions.lookup key = some r → s.records[r]? = some x → x.locked = false

/-- A session that nobody held is held by nobody after others have acted. -/
theorem Free.meanwhile {key : String} {s t : Sandbox} (h : Free key s) (hs : s.Sane)
    (hm : Meanwhile alone s t) : Free key t := by
  intro r y hr hy
  -- The session is a new one, or it was that of the key before.
  obtain hn | hr' := hm.session hr
  · exact hm.unlocked hy hn
  · obtain ⟨x, hx, -⟩ := hs.session hr'
    obtain ⟨y', hy', -, -, hl⟩ := hm.record hx
    obtain rfl := Option.some.inj (hy.symm.trans hy')
    exact hl.trans (h hr' hx)

def held (s : Sandbox) (r : Nat) : Sandbox :=
  { s with records := s.records.modify r fun x => { x with state := .busy, locked := true } }

theorem sane_held {s : Sandbox} (hs : s.Sane) (r : Nat) : (held s r).Sane :=
  hs.modifyRecord r (fun _ => ⟨rfl, rfl⟩) fun _ _ _ => rfl

theorem sound_held {s : Sandbox} (hs : s.Sound) {key : String} {r : Nat}
    (hr : s.sessions.lookup key = some r) (hc : Claimed key s) : (held s r).Sound := by
  refine { sane_held hs.toSane r with claim := fun hk hx hl => ?_ }
  obtain ⟨y, hy, rfl⟩ := Table.getElem?_modify_eq_some.mp hx
  split at hl
  · rename_i h
    subst h
    exact hc _ (hs.single hr hk)
  · exact hs.claim hk hy hl

theorem sound_released {s t : Sandbox} {r : Nat} {x : Record} (hx : s.records[r]? = some x)
    (hfree : x.locked = false) (ht : t.Sound) (hm : Meanwhile alone (held s r) t)
    {f : Record → Record} (hf : ∀ y, (f y).handle = y.handle ∧ (f y).folder = y.folder ∧
      (f y).locked = false ∧ (f y).state ≠ .busy) :
    Sound { t with records := t.records.modify r f } ∧
      Meanwhile alone s { t with records := t.records.modify r f } := by
  have hheld {i : Nat} {y : Record} (hy : s.records[i]? = some y) :
      ∃ z, t.records[i]? = some z ∧ z.handle = y.handle ∧ z.folder = y.folder ∧
        (i ≠ r → z.locked = y.locked) := by
    obtain ⟨z, hz, hh, hfolder, hl⟩ :=
      hm.record (Table.getElem?_modify_eq_some.mpr ⟨y, hy, rfl⟩)
    refine ⟨z, hz, ?_, ?_, fun hne => ?_⟩
    · rw [hh]
      split <;> rfl
    · rw [hfolder]
      split <;> rfl
    · rw [hl, if_neg (Ne.symm hne)]
  have hnone {i : Nat} : (held s r).records[i]? = none ↔ s.records[i]? = none :=
    Table.getElem?_modify_eq_none
  constructor
  · refine { ht.toSane.modifyRecord r (fun y => ⟨(hf y).1, (hf y).2.1⟩)
      (fun y _ h => absurd h (hf y).2.2.2) with claim := fun hk hy hl => ?_ }
    obtain ⟨z, hz, rfl⟩ := Table.getElem?_modify_eq_some.mp hy
    split at hl
    · rw [(hf z).2.2.1] at hl
      exact absurd hl nofun
    · exact ht.claim hk hz hl
  · refine { hm with record := fun {i y} hy => ?_, unlocked := fun hy hn => ?_,
                     session := fun hk => (hm.session hk).imp_left hnone.mp,
                     context := fun hc hx hfl => ?_ }
    · obtain ⟨z, hz, hh, hfolder, hl⟩ := hheld hy
      refine ⟨_, Table.getElem?_modify_eq_some.mpr ⟨z, hz, rfl⟩, ?_⟩
      split
      · rename_i hi
        subst hi
        obtain rfl := Option.some.inj (hx.symm.trans hy)
        exact ⟨(hf z).1.trans hh, (hf z).2.1.trans hfolder, (hf z).2.2.1.trans hfree.symm⟩
      · exact ⟨hh, hfolder, hl (Ne.symm ‹_›)⟩
    · obtain ⟨z, hz, rfl⟩ := Table.getElem?_modify_eq_some.mp hy
      split
      · exact (hf z).2.2.1
      · exact hm.unlocked hz (hnone.mpr hn)
    · exact (hm.context hc hx hfl).imp_right fun h => ⟨h.1, fun i hi => hnone.mp (h.2 i hi)⟩

theorem ends_release {s t : Sandbox} {key : String} {r : Nat} {x : Record}
    (hx : s.records[r]? = some x) (hfree : x.locked = false) (ht : t.Sound)
    (hm : Meanwhile alone (held s r) t) (how : Departure) :
    (release key r how).Ends t fun _ u => u.Sound ∧ Meanwhile alone s u := by
  cases how with
  | normal =>
      exact .of_apply (fun _ => rfl) (sound_released hx hfree ht hm fun _ => ⟨rfl, rfl, rfl, nofun⟩)
  | lost =>
      obtain ⟨hs, hm'⟩ := sound_released hx hfree ht hm (f := fun x =>
        { x with state := .corrupted, locked := false }) fun _ => ⟨rfl, rfl, rfl, nofun⟩
      intro others others' htame hagree
      obtain ⟨heq, hsound, hreset⟩ := keeps_reset key _ hs others others' htame hagree
      exact ⟨heq, hsound, hm'.trans hreset⟩
  | failed =>
      exact .of_apply (fun _ => rfl) (sound_released hx hfree ht hm fun _ => ⟨rfl, rfl, rfl, nofun⟩)

theorem does_hold {s : Sandbox} {key : String} {r : Nat} {x : Record}
    (hr : s.sessions.lookup key = some r) (hx : s.records[r]? = some x) (hfree : x.locked = false) :
    (hold key).Does s r (held s r) := by
  intro others
  simp [hold, bind_apply, get, find?, hr, record, need, hx, hfree, Sandbox.setRecord, Op.change,
    held]

theorem hold_of_none {s : Sandbox} {key : String} (hr : s.sessions.lookup key = none)
    (others : Interrupts) : hold key others s = (.error (.unknownSession key), s) := by
  simp [hold, bind_apply, get, find?, hr]

theorem hold_of_locked {s : Sandbox} {key : String} {r : Nat} {x : Record}
    (hr : s.sessions.lookup key = some r) (hx : s.records[r]? = some x) (hl : x.locked = true)
    (others : Interrupts) : hold key others s = (.error (.sessionBusy key), s) := by
  simp [hold, bind_apply, get, find?, hr, record, need, hx, hl, Op.fail]

theorem hold_eq_ok {s t : Sandbox} {key : String} {r : Nat} {others : Interrupts}
    (h : hold key others s = (.ok r, t)) :
    ∃ x, s.sessions.lookup key = some r ∧ s.records[r]? = some x ∧ x.locked = false ∧
      t = held s r := by
  obtain ⟨r', s₁, hget, h⟩ := bind_eq_ok.mp h
  unfold get at hget
  split at hget
  · rename_i hr
    obtain ⟨hr', rfl⟩ := Prod.mk.inj hget
    obtain rfl := Except.ok.inj hr'
    obtain ⟨x, s₂, hrecord, hheld⟩ := bind_eq_ok.mp h
    obtain ⟨hx, rfl⟩ := need_eq_ok hrecord
    split at hheld
    · exact absurd (Prod.mk.inj hheld).1 nofun
    · obtain ⟨hr', rfl⟩ := Prod.mk.inj hheld
      obtain rfl := Except.ok.inj hr'
      exact ⟨x, hr, hx, Bool.eq_false_iff.mpr ‹_›, rfl⟩
  · exact absurd (Prod.mk.inj hget).1 nofun

/-- What holding a session does: nothing when it is unknown or held already. -/
theorem hold_cases (key : String) (s : Sandbox) (hs : s.Sound) :
    (∃ e, ∀ others, hold key others s = (.error e, s)) ∨
    ∃ r x, s.sessions.lookup key = some r ∧ s.records[r]? = some x ∧ x.locked = false ∧
      ∀ others, hold key others s = (.ok r, held s r) := by
  cases hr : s.sessions.lookup key with
  | none => exact .inl ⟨.unknownSession key, hold_of_none hr⟩
  | some r =>
      obtain ⟨x, hx, -⟩ := hs.session hr
      cases hl : x.locked with
      | true => exact .inl ⟨.sessionBusy key, hold_of_locked hr hx hl⟩
      | false => exact .inr ⟨r, x, rfl, hx, hl, does_hold hr hx hl⟩

section

variable {α : Type} {s t u : Sandbox} {key : String} {others : Interrupts} {r : Nat} {x : Record}
  {use : Nat → Op α}

/-- What comes after a request that was sent while its session was held. -/
theorem holding_eq_letGo {out : Except Failure α} (hhold : hold key others s = (.ok r, u))
    (hx : u.records[r]? = some x) (huse : use x.handle others u = (out, t)) :
    holding key use others s = letGo key r out others t := by
  have hrecord : record r others u = (.ok x, u) := does_need hx others
  simp only [holding, bind_apply, hhold, hrecord, Op.outcome, huse]

theorem holding_eq_ok {a : α} (hhold : hold key others s = (.ok r, u))
    (hx : u.records[r]? = some x) (huse : use x.handle others u = (.ok a, t)) :
    holding key use others s = (do release key r .normal; pure a : Op α) others t :=
  holding_eq_letGo hhold hx huse

theorem holding_eq_error {e : Failure} (hhold : hold key others s = (.ok r, u))
    (hx : u.records[r]? = some x) (huse : use x.handle others u = (.error e, t)) :
    holding key use others s = (do release key r (departure e); Op.fail e : Op α) others t :=
  holding_eq_letGo hhold hx huse

end

theorem departure_eq_lost {e : Failure} : departure e = .lost ↔ e.losesInterpreter = true := by
  unfold departure
  split <;> simp_all

theorem safe_holding {α : Type} {s : Sandbox} (hs : s.Sound) {key : String} (hc : Claimed key s)
    {use : Nat → Op α} (huse : ∀ h, (use h).Keeps alone) : (holding key use).Safe alone s := by
  obtain ⟨e, hhold⟩ | ⟨r, x, hr, hx, hfree, hhold⟩ := hold_cases key s hs
  · refine .of_apply (r := .error e) (fun others => ?_) ⟨hs, .refl s⟩
    simp [holding, bind_apply, hhold]
  · have hheld : (held s r).Sound := sound_held hs hr hc
    refine Ends.bind (Q := fun res t => res = .ok r ∧ t = held s r)
      (.of_apply hhold ⟨rfl, rfl⟩) (fun r' t h => ?_) fun _ _ h => absurd h.1 (by simp)
    obtain ⟨h, rfl⟩ := h
    obtain rfl := (Except.ok.inj h).symm
    have hrecord : (held s r).records[r]? = some { x with state := .busy, locked := true } :=
      Table.getElem?_modify_eq_some.mpr ⟨x, hx, by rw [if_pos rfl]⟩
    refine Ends.bind (Q := fun res t => (∃ y, res = .ok y) ∧ t = held s r)
      (.of_apply (fun _ => by simp only [record, need, hrecord]; rfl) ⟨⟨_, rfl⟩, rfl⟩)
      (fun info t h => ?_) fun _ _ h => absurd h.1.choose_spec (by simp)
    obtain ⟨-, rfl⟩ := h
    refine Ends.bind (Q := fun res t => (∃ a, res = .ok a) ∧ t.Sound ∧ Meanwhile alone (held s r) t)
      (Ends.outcome (huse info.handle _ hheld) fun res t h => ⟨⟨res, rfl⟩, h⟩)
      (fun res t h => ?_) fun _ _ h => absurd h.1.choose_spec (by simp)
    obtain ⟨-, ht, hm⟩ := h
    cases res with
    | ok a =>
        exact Ends.bind (ends_release hx hfree ht hm .normal)
          (fun _ u hu => .of_apply (fun _ => rfl) hu) fun _ _ h => h
    | error e =>
        exact Ends.bind (ends_release hx hfree ht hm (departure e))
          (fun _ u hu => .of_apply (fun _ => rfl) hu) fun _ _ h => h

end Registry

end Rerun
