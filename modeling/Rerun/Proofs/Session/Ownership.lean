import Rerun.Proofs.Sandbox.Reach
import Rerun.Proofs.Sandbox.Steps

/-!
Who owns an interpreter process. Every record has a handle of its own and every handle a process of
its own, whatever clients do. When processes end as they are killed, those that are alive are the
processes of the sessions that are registered, and no process is left over: not by a start that
fails, nor by a session that is replaced, lost, swept or taken down.
-/

namespace Rerun

open Sandbox Op

variable {s t u : Sandbox} {a b : Scene}

/-- No two records share a handle, and no two handles share a process. -/
structure Sandbox.Apart (s : Sandbox) : Prop where
  handle {r r' : Nat} {x x' : Record} : s.records[r]? = some x → s.records[r']? = some x' →
    x.handle = x'.handle → r = r'
  child {h h' c : Nat} {x x' : Handle} : s.handles[h]? = some x → s.handles[h']? = some x' →
    x.child = some c → x'.child = some c → h = h'

structure Sandbox.Owns (s : Sandbox) (key : String) (c : Nat) : Prop where
  owner : ∃ r x h, s.sessions.lookup key = some r ∧ s.records[r]? = some x ∧
    s.handles[x.handle]? = some h ∧ h.child = some c

/-- Processes are lawful, and those that are alive belong to registered sessions. -/
structure Sandbox.Owned (s : Sandbox) : Prop where
  lawful : s.Lawful
  owner {c : Nat} {y : Child} : s.children[c]? = some y → y.alive = true → ∃ key, s.Owns key c

structure Sandbox.SameOwners (s t : Sandbox) : Prop where
  sessions : t.sessions = s.sessions
  records : t.records.map (·.handle) = s.records.map (·.handle)
  handles : t.handles = s.handles
  scripts : t.scripts = s.scripts
  children : Process.Fade s.children t.children

namespace Sandbox.SameOwners

theorem of_drifts (h : s.Drifts t) : s.SameOwners t :=
  ⟨h.sessions, congrArg _ h.records, h.handles, h.scripts, h.children⟩

theorem modifyRecord (s : Sandbox) (r : Nat) {f : Record → Record}
    (hf : ∀ x, (f x).handle = x.handle) :
    s.SameOwners { s with records := s.records.modify r f } where
  sessions := rfl
  records := Table.map_modify hf _ _
  handles := rfl
  scripts := rfl
  children := .refl _

theorem trans (h : s.SameOwners t) (h' : t.SameOwners u) : s.SameOwners u where
  sessions := h'.sessions.trans h.sessions
  records := h'.records.trans h.records
  handles := h'.handles.trans h.handles
  scripts := h'.scripts.trans h.scripts
  children := h.children.trans h'.children

theorem record (h : s.SameOwners t) {r : Nat} {x : Record} (hx : t.records[r]? = some x) :
    ∃ y, s.records[r]? = some y ∧ y.handle = x.handle :=
  Table.getElem?_of_map_eq h.records.symm hx

theorem symm_record (h : s.SameOwners t) {r : Nat} {x : Record} (hx : s.records[r]? = some x) :
    ∃ y, t.records[r]? = some y ∧ y.handle = x.handle :=
  Table.getElem?_of_map_eq h.records hx

theorem apart (h : s.SameOwners t) (hs : s.Apart) : t.Apart where
  handle hx hx' heq := by
    obtain ⟨y, hy, hxy⟩ := h.record hx
    obtain ⟨y', hy', hxy'⟩ := h.record hx'
    exact hs.handle hy hy' (hxy.trans (heq.trans hxy'.symm))
  child := by
    rw [h.handles]
    exact hs.child

theorem owned (h : s.SameOwners t) (hs : s.Owned) : t.Owned where
  lawful := hs.lawful.fade h.scripts h.children
  owner hz halive := by
    obtain ⟨y, hy, hyz⟩ := h.children hz
    obtain ⟨key, r, x, w, hr, hx, hw, hc⟩ := hs.owner hy (hyz.alive halive)
    obtain ⟨x', hx', hhandle⟩ := h.symm_record hx
    refine ⟨key, r, x', w, ?_, hx', ?_, hc⟩
    · rw [h.sessions]
      exact hr
    · rw [hhandle, h.handles]
      exact hw

end Sandbox.SameOwners

/-! ### Starts -/

/-- A new handle, and what it stands for, is apart from those that there were. -/
theorem Sandbox.Opens.apart {x : Handle} (h : s.Opens t x) (hs : s.Sane) (ha : s.Apart) :
    t.Apart where
  handle hx hx' := by
    have hrecords : t.records = s.records := h.tables.records
    rw [hrecords] at hx hx'
    exact ha.handle hx hx'
  child {i j c y y'} hy hy' hc hc' := by
    have hold {i : Nat} {y : Handle} (hy : s.handles[i]? = some y) (hc : y.child = some c) :
        c < s.children.length := by
      obtain ⟨z, hz, -⟩ := hs.handle hy hc
      exact (List.getElem?_eq_some_iff.mp hz).1
    rw [h.handles] at hy hy'
    obtain hi | ⟨rfl, rfl⟩ := Table.getElem?_concat_eq_some.mp hy <;>
      obtain hj | ⟨rfl, rfl⟩ := Table.getElem?_concat_eq_some.mp hy'
    · exact ha.child hi hj hc hc'
    · exact absurd (hold hi hc) (Nat.not_lt.mpr (h.later hc'))
    · exact absurd (hold hj hc') (Nat.not_lt.mpr (h.later hc))
    · rfl

theorem Sandbox.Owns.opens {x : Handle} {key : String} {c : Nat} (h : s.Owns key c)
    (hopens : s.Opens t x) : t.Owns key c := by
  obtain ⟨r, y, w, hr, hy, hw, hc⟩ := h.owner
  refine ⟨r, y, w, ?_, ?_, ?_, hc⟩
  · rw [hopens.tables.sessions]
    exact hr
  · rw [hopens.tables.records]
    exact hy
  · rw [hopens.handles]
    exact Table.getElem?_concat_of_some hw

theorem Sandbox.Fails.owned (h : s.Fails t) (hs : s.Owned) : t.Owned := by
  obtain ⟨x, hopens, hnone⟩ := h
  refine ⟨hopens.lawful hs.lawful, fun {c z} hz halive => ?_⟩
  obtain hc | ⟨y, hy, hlive⟩ := hopens.alive hs.lawful hz halive
  · exact absurd ((hnone hs.lawful).symm.trans hc) nofun
  · obtain ⟨key, howns⟩ := hs.owner hy hlive
    exact ⟨key, howns.opens hopens⟩

theorem Sandbox.Adds.apart {p : Path} (h : s.Adds t p) (hs : s.Sane) (ha : s.Apart)
    (key : String) : (Registry.enrolled t key s.records.length).Apart := by
  obtain ⟨u, x, y, hopens, rfl, hhandle, -⟩ := h.opens
  have hu := hopens.apart hs ha
  have hrecords : u.records = s.records := hopens.tables.records
  have hold {r : Nat} {z : Record} (hz : u.records[r]? = some z) : z.handle < s.handles.length := by
    rw [hrecords] at hz
    obtain ⟨-, w, hw, -⟩ := hs.record hz
    exact (List.getElem?_eq_some_iff.mp hw).1
  refine ⟨fun {r r' z z'} hz hz' heq => ?_, hu.child⟩
  obtain hr | ⟨rfl, rfl⟩ := Table.getElem?_concat_eq_some.mp hz <;>
    obtain hr' | ⟨rfl, rfl⟩ := Table.getElem?_concat_eq_some.mp hz'
  · exact hu.handle hr hr' heq
  · exact absurd (hold hr) (by rw [heq, hhandle]; exact Nat.lt_irrefl _)
  · exact absurd (hold hr') (by rw [← heq, hhandle]; exact Nat.lt_irrefl _)
  · rfl

theorem Sandbox.Adds.owned {p : Path} (h : s.Adds t p) (hs : s.Owned) {key : String}
    (hnone : s.sessions.lookup key = none) :
    (Registry.enrolled t key s.records.length).Owned := by
  obtain ⟨u, x, y, hopens, rfl, hhandle, -⟩ := h.opens
  have hrecords : u.records = s.records := hopens.tables.records
  refine ⟨{ hopens.lawful hs.lawful with }, fun {c z} hz halive => ?_⟩
  obtain hc | ⟨w, hw, hlive⟩ := hopens.alive hs.lawful hz halive
  · refine ⟨key, s.records.length, y, x, Assoc.lookup_put_self _ _ _, ?_, ?_, hc⟩
    · rw [← hrecords]
      exact List.getElem?_concat_length
    · show u.handles[y.handle]? = some x
      rw [hopens.handles, hhandle]
      exact List.getElem?_concat_length
  · obtain ⟨key', howns⟩ := hs.owner hw hlive
    obtain ⟨r, x', w', hr, hx', hw', hc⟩ := (howns.opens hopens).owner
    refine ⟨key', r, x', w', ?_, Table.getElem?_concat_of_some hx', hw', hc⟩
    have hne : key' ≠ key := by
      rintro rfl
      rw [hopens.tables.sessions, hnone] at hr
      exact absurd hr nofun
    exact (Assoc.lookup_put_of_ne _ _ hne).trans hr

/-! ### Teardowns -/

theorem Registry.TornDown.handle_of {key : String} (h : TornDown key s t) (hs : s.Sane) {i : Nat}
    {y : Handle} (hy : t.handles[i]? = some y) :
    ∃ x, s.handles[i]? = some x ∧ (y = x ∨ y.child = none) := by
  cases hr : s.sessions.lookup key with
  | none =>
      rw [h.still hr] at hy
      exact ⟨y, hy, .inl rfl⟩
  | some r =>
      obtain ⟨x, hx, -⟩ := hs.session hr
      obtain ⟨w, -, -, hhandles⟩ := h.process hr hx
      rw [hhandles] at hy
      obtain ⟨x', hx', rfl⟩ := Table.getElem?_modify_eq_some.mp hy
      refine ⟨x', hx', ?_⟩
      split
      · exact .inr rfl
      · exact .inl rfl

theorem Registry.TornDown.fade {key : String} (h : TornDown key s t) (hs : s.Sane) :
    Process.Fade s.children t.children := by
  cases hr : s.sessions.lookup key with
  | none =>
      rw [h.still hr]
      exact .refl _
  | some r =>
      obtain ⟨x, hx, -⟩ := hs.session hr
      obtain ⟨w, -, hchildren, -⟩ := h.process hr hx
      rw [hchildren]
      exact .ending _

theorem Registry.TornDown.apart {key : String} (h : TornDown key s t) (hs : s.Sane)
    (ha : s.Apart) : t.Apart where
  handle hx hx' := by
    rw [h.records] at hx hx'
    exact ha.handle hx hx'
  child hy hy' hc hc' := by
    obtain ⟨x, hx, rfl | hnone⟩ := h.handle_of hs hy
    · obtain ⟨x', hx', rfl | hnone'⟩ := h.handle_of hs hy'
      · exact ha.child hx hx' hc hc'
      · exact absurd (hnone'.symm.trans hc') nofun
    · exact absurd (hnone.symm.trans hc) nofun

/-- A session keeps its handle and its process when another one is taken down. -/
theorem Registry.TornDown.spares {key : String} (h : TornDown key s t) (hs : s.Sane) (ha : s.Apart)
    {key' : String} {r : Nat} {x : Record} {w : Handle} (hne : key' ≠ key)
    (hr : s.sessions.lookup key' = some r) (hx : s.records[r]? = some x)
    (hw : s.handles[x.handle]? = some w) :
    t.sessions.lookup key' = some r ∧ t.records = s.records ∧ t.handles[x.handle]? = some w ∧
      ∀ c, w.child = some c → t.children[c]? = s.children[c]? := by
  have hsession : t.sessions.lookup key' = some r := by
    rw [h.sessions]
    exact (Assoc.lookup_drop_of_ne _ hne).trans hr
  cases hr' : s.sessions.lookup key with
  | none =>
      rw [h.still hr']
      exact ⟨hr, rfl, hw, fun _ _ => rfl⟩
  | some r' =>
      obtain ⟨x', hx', -⟩ := hs.session hr'
      obtain ⟨w', hw', hchildren, hhandles⟩ := h.process hr' hx'
      -- Two sessions have two records, these two handles, and these two processes.
      have hapart : x'.handle ≠ x.handle := by
        intro heq
        obtain rfl := ha.handle hx' hx heq
        exact hne (hs.single hr hr')
      refine ⟨hsession, h.records, ?_, fun c hc => ?_⟩
      · rw [hhandles]
        exact Table.getElem?_modify_eq_some.mpr ⟨w, hw, by rw [if_neg hapart]⟩
      · rw [hchildren]
        cases hc' : w'.child with
        | none => rfl
        | some c' =>
            have hcc : c' ≠ c := by
              rintro rfl
              exact hapart (ha.child hw' hw hc' hc)
            rw [Process.ending, List.getElem?_modify]
            simp [hcc]

theorem Registry.TornDown.owned {key : String} (h : TornDown key s t) (hs : s.Sane)
    (ha : s.Apart) (ho : s.Owned) : t.Owned := by
  have hfade := h.fade hs
  refine ⟨ho.lawful.fade (by rw [h.tables]) hfade, fun {c z} hz halive => ?_⟩
  obtain ⟨y, hy, hyz⟩ := hfade hz
  obtain ⟨key', r, x, w, hr, hx, hw, hc⟩ := ho.owner hy (hyz.alive halive)
  by_cases hne : key' = key
  · -- The process of the session that was taken down was ended.
    subst hne
    obtain ⟨w', hw', hchildren, -⟩ := h.process hr hx
    obtain rfl := Option.some.inj (hw.symm.trans hw')
    rw [hchildren, hc] at hz
    obtain ⟨y', hy', rfl⟩ := Table.getElem?_modify_eq_some.mp hz
    rw [if_pos rfl, Process.not_alive_ended (ho.lawful.children hy')] at halive
    exact absurd halive nofun
  · obtain ⟨hsession, hrecords, hhandle, -⟩ := h.spares hs ha hne hr hx hw
    rw [← hrecords] at hx
    exact ⟨key', r, x, w, hsession, hx, hhandle, hc⟩

/-! ### Whatever clients do -/

theorem Sandbox.SameOwners.of_runs (s : Sandbox) (contexts : List (String × Nat))
    (runs : List RunInfo) (engineSeeds : List (String × Int)) :
    s.SameOwners { s with contexts, runs, engineSeeds } :=
  ⟨rfl, rfl, rfl, rfl, .refl _⟩

theorem Run.Embarked.sameOwners {i : Nat} {x : RunInfo} {q : Execution.Request}
    (h : Run.Embarked s i x q t) : s.SameOwners t := by
  obtain ⟨n, v, f, hdrawn, -, -, rfl⟩ := h.drawn
  rw [hdrawn.tables]
  exact ⟨rfl, rfl, rfl, rfl, .refl _⟩

/-- A move leaves the owners as they are, or starts a session, or takes one down. -/
theorem Move.owners (h : Move a b) : a.box.SameOwners b.box ∨ a.box.Fails b.box ∨
    (∃ t key p, a.box.sessions.lookup key = none ∧ a.box.Adds t p ∧
      b.box = Registry.enrolled t key a.box.records.length) ∨
    ∃ u key, a.box.SameOwners u ∧ (a.box.Sane → u.Sane) ∧ Registry.TornDown key u b.box := by
  cases h with
  | drift hd => exact .inl (.of_drifts hd)
  | touch r hf => exact .inl (.modifyRecord _ r fun x => (hf x).1)
  | fail hf => exact .inr (.inl hf)
  | enroll _ hnone _ hadds => exact .inr (.inr (.inl ⟨_, _, _, hnone, hadds, rfl⟩))
  | tearDown key htorn =>
      exact .inr (.inr (.inr ⟨_, key, ⟨rfl, rfl, rfl, rfl, .refl _⟩, id, htorn⟩))
  | enter => exact .inl (.modifyRecord _ _ fun _ => rfl)
  | leave => exact .inl (.modifyRecord _ _ fun _ => rfl)
  | lose _ htorn =>
      have hlost {r : Nat} : a.box.SameOwners (Registry.lost a.box r) :=
        .modifyRecord _ _ fun _ => rfl
      exact .inr (.inr (.inr ⟨_, _, hlost, fun hs => hs.lost _, htorn⟩))
  | forget => exact .inl (.of_runs _ _ _ _)
  | forsake => exact .inl (.of_runs _ _ _ _)
  | begin _ _ hembarked =>
      have hentered {x : RunInfo} {c : String} : a.box.SameOwners (Contexts.entered a.box c x) :=
        ⟨rfl, rfl, rfl, rfl, .refl _⟩
      exact .inl (hentered.trans hembarked.sameOwners)
  | again _ _ _ hembarked => exact .inl hembarked.sameOwners
  | land => exact .inl (.of_runs _ _ _ _)

theorem Move.apart (h : Move a b) (hs : a.box.Sane) (ha : a.box.Apart) : b.box.Apart := by
  obtain hsame | ⟨x, hopens, -⟩ | ⟨t, key, p, -, hadds, hb⟩ | ⟨u, key, hsame, hsane, htorn⟩ :=
    h.owners
  · exact hsame.apart ha
  · exact hopens.apart hs ha
  · rw [hb]
    exact hadds.apart hs ha key
  · exact htorn.apart (hsane hs) (hsame.apart ha)

theorem Move.owned (h : Move a b) (hs : a.box.Sane) (ha : a.box.Apart) (ho : a.box.Owned) :
    b.box.Owned := by
  obtain hsame | hfails | ⟨t, key, p, hnone, hadds, hb⟩ | ⟨u, key, hsame, hsane, htorn⟩ := h.owners
  · exact hsame.owned ho
  · exact hfails.owned ho
  · rw [hb]
    exact hadds.owned ho hnone
  · exact htorn.owned (hsane hs) (hsame.apart ha) (hsame.owned ho)

theorem Moves.apart (h : Moves a b) (hs : a.box.Sane) (ha : a.box.Apart) : b.box.Apart :=
  h.keeps (P := (·.box.Apart)) (fun _ _ hmove => hmove.apart) hs ha

theorem Moves.owned (h : Moves a b) (hs : a.box.Sane) (ha : a.box.Apart) (ho : a.box.Owned) :
    b.box.Owned := by
  -- What a move does to the owners of processes depends on their being apart.
  have hboth := h.keeps (P := fun a => a.box.Apart ∧ a.box.Owned)
    (fun _ _ hmove hs h => ⟨hmove.apart hs h.1, hmove.owned hs h.1 h.2⟩) hs ⟨ha, ho⟩
  exact hboth.2

theorem Sandbox.Fresh.apart (h : s.Fresh) : s.Apart where
  handle hx := by simp [h.records] at hx
  child hx := by simp [h.handles] at hx

theorem Sandbox.Fresh.owned (h : s.Fresh) (hscripts : ∀ x ∈ s.scripts, x.Lawful) : s.Owned where
  lawful := ⟨fun hx => hscripts _ hx, fun hy => by simp [h.children] at hy⟩
  owner hy := by simp [h.children] at hy

/-- Nobody but the session of a key owns its process, and it has no other one. -/
theorem Sandbox.Apart.owns_unique (ha : s.Apart) (hs : s.Sane) {key key' : String} {c c' : Nat}
    (h : s.Owns key c) (h' : s.Owns key' c') : key = key' ↔ c = c' := by
  obtain ⟨r, x, w, hr, hx, hw, hc⟩ := h.owner
  obtain ⟨r', x', w', hr', hx', hw', hc'⟩ := h'.owner
  constructor
  · rintro rfl
    obtain rfl := Option.some.inj (hr.symm.trans hr')
    obtain rfl := Option.some.inj (hx.symm.trans hx')
    obtain rfl := Option.some.inj (hw.symm.trans hw')
    exact Option.some.inj (hc.symm.trans hc')
  · rintro rfl
    obtain rfl := ha.handle hx hx' (ha.child hw hw' hc hc')
    exact hs.single hr hr'

/-- No interpreter process is left over. Whatever clients do, and in whatever order, a process that
is alive is that of one registered session, and no session has two. -/
theorem Sandbox.Fresh.no_orphan (hs : s.Fresh) (hscripts : ∀ x ∈ s.scripts, x.Lawful)
    (h : Steps ⟨s, [], []⟩ b) :
    (∀ c y, b.box.children[c]? = some y → y.alive = true → ∃ key, b.box.Owns key c) ∧
      ∀ key key' c c', b.box.Owns key c → b.box.Owns key' c' → (key = key' ↔ c = c') := by
  have hsane : s.Sane := hs.sound.toSane
  have hmoves := h.moves hsane
  have hapart := hmoves.apart hsane hs.apart
  have howned := hmoves.owned hsane hs.apart (hs.owned hscripts)
  exact ⟨fun c y hy halive => howned.owner hy halive, fun key key' c c' howns howns' =>
    hapart.owns_unique (hmoves.sane hsane) howns howns'⟩

/-- The first interpreter that is started ends before it is up, the next one does not. -/
def Sandbox.faltering : Sandbox := { usual with scripts := [{ exitAfter := some 0 }, {}] }

/-- A session is started, taken down, and started once more. -/
def Sandbox.restarted (s : Sandbox) : Sandbox :=
  let acquire (s : Sandbox) := (Registry.acquire Contexts.onSweep (some "k") (orderly 0) s).2
  acquire (Registry.reset "k" (orderly 0) (acquire s)).2

theorem Sandbox.steps_restarted (s : Sandbox) : Steps ⟨s, [], []⟩ ⟨s.restarted, [], []⟩ :=
  .tail (.tail (.single (.acquire ⟨s, [], []⟩ (orderly 0) (some "k")))
    (.reset ⟨_, [], []⟩ (orderly 0) "k")) (.acquire ⟨_, [], []⟩ (orderly 0) (some "k"))

/-- Of three processes only the last one lives on, and it is that of the session. -/
theorem Sandbox.no_orphan_faltering :
    faltering.restarted.children.map (·.alive) = [false, false, true] ∧
      faltering.restarted.Owns "k" 2 := by
  obtain ⟨halive, hsessions⟩ :
      faltering.restarted.children.map (·.alive) = [false, false, true] ∧
        faltering.restarted.sessions.map (·.1) = ["k"] := by
    decide +kernel
  have hfresh : faltering.Fresh := ⟨rfl, rfl, rfl, rfl, rfl, rfl, rfl, rfl, rfl⟩
  have hscripts : ∀ x ∈ faltering.scripts, x.Lawful := by
    simp only [faltering, List.mem_cons, List.not_mem_nil, or_false, forall_eq_or_imp, forall_eq]
    exact ⟨⟨rfl, fun _ _ => List.not_mem_nil⟩, ChildScript.lawful_default⟩
  obtain ⟨y, hy, hlive⟩ : ∃ y, faltering.restarted.children[2]? = some y ∧ y.alive = true := by
    have h := congrArg (·[2]?) halive
    simpa using h
  obtain ⟨key, howns⟩ := (hfresh.no_orphan hscripts faltering.steps_restarted).1 2 y hy hlive
  dsimp only at howns
  obtain ⟨r, -, -, hr, -⟩ := howns.owner
  obtain ⟨before, after, hl, -⟩ := List.lookup_eq_some_iff.mp hr
  have hkey : key ∈ faltering.restarted.sessions.map (·.1) := by
    rw [hl]
    simp
  rw [hsessions, List.mem_singleton] at hkey
  subst hkey
  exact ⟨halive, howns⟩

end Rerun
