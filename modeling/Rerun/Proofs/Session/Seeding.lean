import Rerun.Proofs.Sandbox.Reach
import Rerun.Proofs.Sandbox.Steps

/-!
The seeds of runs. Seeds are drawn one after the other, and the runs of the engine get them in the
order in which they are made: each run draws once, before its first attempt, and all that it asks
for carries that seed. The table holds the seeds of those runs that a context leads to, and no
others.
-/

namespace Rerun

open Sandbox Op

variable {s t u : Sandbox} {a b : Scene}

def Sandbox.runIds (s : Sandbox) : List String := s.runs.map (·.runId)

theorem Sandbox.runIds_getElem? {i : Nat} {id : String} :
    s.runIds[i]? = some id ↔ ∃ x, s.runs[i]? = some x ∧ x.runId = id := by
  rw [runIds, List.getElem?_map]
  exact Option.map_eq_some_iff

theorem Sandbox.DistinctRuns.runIds (h : s.DistinctRuns) {i j : Nat} {id : String}
    (hi : s.runIds[i]? = some id) (hj : s.runIds[j]? = some id) : i = j := by
  obtain ⟨x, hx, hxid⟩ := runIds_getElem?.mp hi
  obtain ⟨y, hy, hyid⟩ := runIds_getElem?.mp hj
  exact h i j x y hx hy (hxid.trans hyid.symm)

theorem Sandbox.Sane.context_single (hs : s.Sane) {c c' : String} {i : Nat}
    (h : s.contexts.lookup c = some i) (h' : s.contexts.lookup c' = some i) : c = c' := by
  obtain ⟨x, hx, hkey, -⟩ := hs.context h
  obtain ⟨x', hx', hkey', -⟩ := hs.context h'
  obtain rfl := Option.some.inj (hx.symm.trans hx')
  exact Contexts.runKey_injective (hkey.symm.trans hkey')

/-- Two states with the same seeds, which belong to the same runs of the same contexts. -/
structure Sandbox.SameSeeds (s t : Sandbox) : Prop where
  drawnIds : s.drawnIds ≤ t.drawnIds
  seeds : t.seeds = s.seeds
  nextSeed : t.nextSeed = s.nextSeed
  engineSeeds : t.engineSeeds = s.engineSeeds
  contexts : t.contexts = s.contexts
  runIds : t.runIds = s.runIds

namespace Sandbox.SameSeeds

theorem refl (s : Sandbox) : s.SameSeeds s := ⟨Nat.le_refl _, rfl, rfl, rfl, rfl, rfl⟩

theorem of_drifts (h : s.Drifts t) : s.SameSeeds t where
  drawnIds := h.drawnIds
  seeds := h.seeds
  nextSeed := h.nextSeed
  engineSeeds := h.engineSeeds
  contexts := h.contexts
  runIds := by
    have hids := congrArg (List.map (·.1)) h.marks
    rwa [List.map_map, List.map_map] at hids

theorem of_tables (h : s.SameTables t) : s.SameSeeds t where
  drawnIds := Nat.le_of_eq h.drawnIds.symm
  seeds := h.seeds
  nextSeed := h.nextSeed
  engineSeeds := h.engineSeeds
  contexts := h.contexts
  runIds := congrArg (List.map RunInfo.runId) h.runs

theorem of_tornDown {key : String} (h : Registry.TornDown key s t) : s.SameSeeds t := by
  rw [h.tables]
  exact { refl s with }

theorem modifyRun (s : Sandbox) (i : Nat) {f : RunInfo → RunInfo}
    (hf : ∀ x, (f x).runId = x.runId) : s.SameSeeds { s with runs := s.runs.modify i f } :=
  { refl s with runIds := Table.map_modify hf _ _ }

theorem seedAt (h : s.SameSeeds t) (k : Nat) : t.seedAt k = s.seedAt k := by
  rw [Sandbox.seedAt, Sandbox.seedAt, h.seeds, h.nextSeed]

end Sandbox.SameSeeds

/-- Every run has the seed that was to be drawn when it was made, counted from the seeds of the
state `s`. -/
structure Scene.Seeded (s : Sandbox) (a : Scene) : Prop where
  drawn (k : Nat) : a.box.seedAt k = s.seedAt (a.box.runIds.length + k)
  tracked {c : String} {i : Nat} {id : String} : a.box.contexts.lookup c = some i →
    a.box.runIds[i]? = some id → a.box.engineSeeds.lookup id = some (s.seedAt i)
  needed {id : String} {n : Int} : a.box.engineSeeds.lookup id = some n →
    ∃ c i, a.box.contexts.lookup c = some i ∧ a.box.runIds[i]? = some id
  sent {q : Execution.Request} : q ∈ a.requests →
    ∃ i id, a.box.runIds[i]? = some id ∧ q.runId = some id ∧ q.seed = some (s.seedAt i)

namespace Scene.Seeded

theorem frame (h : a.Seeded s) (hrequests : b.requests = a.requests)
    (hsame : a.box.SameSeeds b.box) : b.Seeded s where
  drawn k := by
    rw [hsame.seedAt, hsame.runIds]
    exact h.drawn k
  tracked hc hi := by
    rw [hsame.contexts] at hc
    rw [hsame.runIds] at hi
    rw [hsame.engineSeeds]
    exact h.tracked hc hi
  needed hn := by
    rw [hsame.engineSeeds] at hn
    rw [hsame.contexts, hsame.runIds]
    exact h.needed hn
  sent hq := by
    rw [hrequests] at hq
    rw [hsame.runIds]
    exact h.sent hq

theorem request (h : a.Seeded s) {q : Execution.Request} {i : Nat} {id : String}
    (hi : a.box.runIds[i]? = some id) (hid : q.runId = some id)
    (hseed : q.seed = some (s.seedAt i)) :
    Scene.Seeded s { a with requests := q :: a.requests } :=
  { h with
    sent := fun hq => by
      obtain rfl | hq := List.mem_cons.mp hq
      · exact ⟨i, id, hi, hid, hseed⟩
      · exact h.sent hq }

theorem forgotten (h : a.Seeded s) (hs : a.box.Sane) (hd : a.box.DistinctRuns) {c : String}
    {i : Nat} {x : RunInfo} (hc : a.box.contexts.lookup c = some i)
    (hx : a.box.runs[i]? = some x) :
    Scene.Seeded s { a with box := Contexts.forgotten a.box c x } := by
  have hi : a.box.runIds[i]? = some x.runId := runIds_getElem?.mpr ⟨x, hx, rfl⟩
  refine { h with tracked := fun {c' j id} hj hid => ?_, needed := fun {id n} hn => ?_ }
  · have hj : (Assoc.drop a.box.contexts c).lookup c' = some j := hj
    rw [Assoc.lookup_drop] at hj
    split at hj
    · exact absurd hj nofun
    · rename_i hne
      -- A run is that of one context, so that its seed is not the one that was dropped.
      have hids : id ≠ x.runId := by
        rintro rfl
        obtain rfl := hd.runIds hid hi
        exact hne (hs.context_single hj hc)
      exact (Assoc.lookup_drop_of_ne _ hids).trans (h.tracked hj hid)
  · have hn : (Assoc.drop a.box.engineSeeds x.runId).lookup id = some n := hn
    rw [Assoc.lookup_drop] at hn
    split at hn
    · exact absurd hn nofun
    · rename_i hne
      obtain ⟨c', j, hj, hid⟩ := h.needed hn
      refine ⟨c', j, (Assoc.lookup_drop_of_ne _ ?_).trans hj, hid⟩
      rintro rfl
      obtain rfl := Option.some.inj (hc.symm.trans hj)
      exact hne (Option.some.inj (hid.symm.trans hi))

/-- A new run is entered for a context that has none, and the next seed is drawn for it. -/
theorem entered (h : a.Seeded s) {c id : String} (hc : a.box.contexts.lookup c = none)
    (hd : ∀ i : Nat, a.box.runIds[i]? ≠ some id)
    (hdrawn : ∀ k, b.box.seedAt k = a.box.seedAt (k + 1))
    (hseeds : b.box.engineSeeds = Assoc.put a.box.engineSeeds id (a.box.seedAt 0))
    (hcontexts : b.box.contexts = Assoc.put a.box.contexts c a.box.runIds.length)
    (hruns : b.box.runIds = a.box.runIds ++ [id]) (hrequests : b.requests = a.requests) :
    b.Seeded s where
  drawn k := by
    rw [hdrawn, hruns, h.drawn, List.length_append, List.length_singleton, Nat.add_assoc,
      Nat.add_comm k]
  tracked {c' i id'} hi hid := by
    rw [hcontexts] at hi
    rw [hruns] at hid
    rw [hseeds]
    obtain ⟨-, rfl⟩ | hi := Assoc.lookup_of_lookup_put hi
    · obtain rfl : id' = id := by
        rw [List.getElem?_concat_length] at hid
        exact (Option.some.inj hid).symm
      rw [Assoc.lookup_put_self, h.drawn, Nat.add_zero]
    · obtain hold | ⟨rfl, rfl⟩ := Table.getElem?_concat_eq_some.mp hid
      · have hne : id' ≠ id := by
          rintro rfl
          exact hd i hold
        rw [Assoc.lookup_put_of_ne _ _ hne]
        exact h.tracked hi hold
      · rw [Assoc.lookup_put_self, h.drawn, Nat.add_zero]
  needed {id' n} hn := by
    rw [hseeds] at hn
    rw [hcontexts, hruns]
    obtain ⟨rfl, -⟩ | hn := Assoc.lookup_of_lookup_put hn
    · exact ⟨c, _, Assoc.lookup_put_self _ _ _, List.getElem?_concat_length⟩
    · obtain ⟨c', i, hi, hid⟩ := h.needed hn
      have hne : c' ≠ c := by
        rintro rfl
        exact absurd (hc.symm.trans hi) nofun
      exact ⟨c', i, (Assoc.lookup_put_of_ne _ _ hne).trans hi, Table.getElem?_concat_of_some hid⟩
  sent hq := by
    rw [hrequests] at hq
    rw [hruns]
    obtain ⟨i, id', hid, hrest⟩ := h.sent hq
    exact ⟨i, id', Table.getElem?_concat_of_some hid, hrest⟩

theorem begun (h : a.Seeded s) {c : String} {x : RunInfo} {q : Execution.Request}
    (hc : a.box.contexts.lookup c = none) (hd : (Contexts.entered a.box c x).DistinctRuns)
    (hembarked : Run.Embarked (Contexts.entered a.box c x) a.box.runs.length x q t) :
    Scene.Seeded s { a with box := t, requests := q :: a.requests } := by
  obtain ⟨n, v, f, hdrawn, hqseed, hf, rfl⟩ := hembarked.drawn
  have hids : (Contexts.entered a.box c x).runIds = a.box.runIds ++ [x.runId] := List.map_append
  have hlength : a.box.runs.length = a.box.runIds.length := (List.length_map _).symm
  have hruns : ((Contexts.entered a.box c x).runs.modify a.box.runs.length f).map (·.runId) =
      a.box.runIds ++ [x.runId] := (Table.map_modify (fun y => (hf y).2.2.1) _ _).trans hids
  have hnew (i : Nat) : a.box.runIds[i]? ≠ some x.runId := by
    intro hi
    have hlt := (List.getElem?_eq_some_iff.mp hi).1
    have hi' : (Contexts.entered a.box c x).runIds[i]? = some x.runId := by
      rw [hids]
      exact Table.getElem?_concat_of_some hi
    have hlast : (Contexts.entered a.box c x).runIds[a.box.runIds.length]? = some x.runId := by
      rw [hids]
      exact List.getElem?_concat_length
    exact absurd (hd.runIds hi' hlast) (Nat.ne_of_lt hlt)
  have hnone : a.box.engineSeeds.lookup x.runId = none := by
    refine Option.eq_none_iff_forall_not_mem.mpr fun m hm => ?_
    obtain ⟨-, i, -, hi⟩ := h.needed hm
    exact hnew i hi
  obtain ⟨rfl, hseeds, hnext⟩ := hdrawn.next hnone
  have hbox : Scene.Seeded s { a with box := { v with
      runs := (Contexts.entered a.box c x).runs.modify a.box.runs.length f } } :=
    h.entered hc hnew hnext hseeds (hlength ▸ congrArg Sandbox.contexts hdrawn.tables) hruns rfl
  refine hbox.request (i := a.box.runIds.length) ?_ hembarked.runId ?_
  · exact (congrArg (·[a.box.runIds.length]?) hruns).trans List.getElem?_concat_length
  · rw [hqseed]
    exact congrArg some (h.drawn 0)

theorem again (h : a.Seeded s) {c : String} {i : Nat} {x : RunInfo} {q : Execution.Request}
    (hc : a.box.contexts.lookup c = some i) (hx : a.box.runs[i]? = some x)
    (hembarked : Run.Embarked a.box i x q t) :
    Scene.Seeded s { a with box := t, requests := q :: a.requests } := by
  obtain ⟨n, v, f, hdrawn, hqseed, hf, rfl⟩ := hembarked.drawn
  have hi : a.box.runIds[i]? = some x.runId := runIds_getElem?.mpr ⟨x, hx, rfl⟩
  have hseed := h.tracked hc hi
  obtain rfl := hdrawn.kept hseed
  obtain rfl := Option.some.inj (hseed.symm.trans hdrawn.found)
  have hruns := Table.map_modify (fun y => (hf y).2.2.1) a.box.runs i
  have hbox : Scene.Seeded s { a with box := { a.box with runs := a.box.runs.modify i f } } :=
    h.frame rfl (.modifyRun _ _ fun y => (hf y).2.2.1)
  exact hbox.request ((congrArg (·[i]?) hruns).trans hi) hembarked.runId hqseed

end Scene.Seeded

theorem Run.Embarked.drawnIds {i : Nat} {x : RunInfo} {q : Execution.Request}
    (h : Run.Embarked s i x q t) : t.drawnIds = s.drawnIds := by
  obtain ⟨n, v, f, hdrawn, -, -, rfl⟩ := h.drawn
  rw [hdrawn.tables]

/-- A move has nothing to do with seeds, or it drops one with the run of a context, or a run is
taken for an attempt. -/
theorem Move.seeds (h : Move a b) :
    b.requests = a.requests ∧ a.box.SameSeeds b.box ∨
    (∃ c i x, a.box.contexts.lookup c = some i ∧ a.box.runs[i]? = some x ∧
      b.requests = a.requests ∧ (Contexts.forgotten a.box c x).SameSeeds b.box) ∨
    (∃ c source values timeout q, a.box.contexts.lookup c = none ∧
      secondsOf a.box.setup.runTimeoutMs = .ok timeout ∧
      Run.Embarked (Contexts.entered a.box c (Contexts.freshRun a.box c source values timeout))
        a.box.runs.length (Contexts.freshRun a.box c source values timeout) q b.box ∧
      b = { a with box := b.box, requests := q :: a.requests }) ∨
    ∃ c i x q, a.box.contexts.lookup c = some i ∧ a.box.runs[i]? = some x ∧
      Run.Embarked a.box i x q b.box ∧ b =
      { a with box := b.box, requests := q :: a.requests } := by
  cases h with
  | drift hd => exact .inl ⟨rfl, .of_drifts hd⟩
  | fail hf =>
      obtain ⟨x, hopens, -⟩ := hf
      exact .inl ⟨rfl, .of_tables hopens.tables⟩
  | enroll _ _ _ hadds =>
      obtain ⟨v, x, y, hopens, rfl, -⟩ := hadds.opens
      exact .inl ⟨rfl, { SameSeeds.of_tables hopens.tables with }⟩
  | tearDown key htorn => exact .inl ⟨rfl, .of_tornDown htorn⟩
  | lose _ htorn => exact .inl ⟨rfl, { SameSeeds.of_tornDown htorn with }⟩
  | touch | enter | leave => exact .inl ⟨rfl, { SameSeeds.refl a.box with }⟩
  | land => exact .inl ⟨rfl, .modifyRun _ _ fun _ => rfl⟩
  | forget hc hx => exact .inr (.inl ⟨_, _, _, hc, hx, rfl, .refl _⟩)
  | forsake hc hx =>
      exact .inr (.inl ⟨_, _, _, hc, hx, rfl,
        .modifyRun (Contexts.forgotten a.box _ _) _ fun _ => rfl⟩)
  | begin hc htimeout hembarked =>
      exact .inr (.inr (.inl ⟨_, _, _, _, _, hc, htimeout, hembarked, rfl⟩))
  | again hc hx _ hembarked => exact .inr (.inr (.inr ⟨_, _, _, _, hc, hx, hembarked, rfl⟩))

theorem Move.drawnIds_le (h : Move a b) : a.box.drawnIds ≤ b.box.drawnIds := by
  obtain ⟨-, hsame⟩ | ⟨_, _, _, -, -, -, hsame⟩ | ⟨_, _, _, _, _, -, -, hembarked, -⟩ |
    ⟨_, _, _, _, -, -, hembarked, -⟩ := h.seeds
  · exact hsame.drawnIds
  · exact hsame.drawnIds
  · exact Nat.le_trans (Nat.le_succ _) (Nat.le_of_eq hembarked.drawnIds.symm)
  · exact Nat.le_of_eq hembarked.drawnIds.symm

theorem Move.seeded (h : Move a b) (hs : a.box.Sane) (hids : b.box.drawnIds < 16 ^ 8)
    (ha : a.Seeded s) : b.Seeded s := by
  have hd : a.box.DistinctRuns := hs.distinctRuns (Nat.lt_of_le_of_lt h.drawnIds_le hids)
  obtain ⟨hrequests, hsame⟩ | ⟨c, i, x, hc, hx, hrequests, hsame⟩ |
    ⟨c, source, values, timeout, q, hc, htimeout, hembarked, hb⟩ |
    ⟨c, i, x, q, hc, hx, hembarked, hb⟩ := h.seeds
  · exact ha.frame hrequests hsame
  · exact (ha.forgotten hs hd hc hx).frame hrequests hsame
  · rw [hb]
    rw [hembarked.drawnIds] at hids
    exact ha.begun hc ((hs.entered c source values htimeout).distinctRuns hids) hembarked
  · rw [hb]
    exact ha.again hc hx hembarked

theorem Moves.seeded (h : Moves a b) (hs : a.box.Sane) (hids : b.box.drawnIds < 16 ^ 8)
    (ha : a.Seeded s) : b.Seeded s :=
  -- Identifiers are never put back, so that there were enough of them all the time.
  h.keeps (P := fun a => a.box.drawnIds < 16 ^ 8 → a.Seeded s)
    (fun _ _ hmove hs h hids => hmove.seeded hs hids
      (h (Nat.lt_of_le_of_lt hmove.drawnIds_le hids))) hs (fun _ => ha) hids

theorem Sandbox.Fresh.seeded (h : s.Fresh) (hseeds : s.engineSeeds = []) :
    Scene.Seeded s ⟨s, [], []⟩ where
  drawn k := by simp [runIds, h.runs]
  tracked hc := by simp [h.contexts] at hc
  needed hn := by simp [hseeds] at hn
  sent hq := absurd hq List.not_mem_nil

/-- What holds of the seeds at all times, when those that are drawn first are the seeds of `s`. -/
structure Scene.OneSeed (s : Sandbox) (a : Scene) : Prop where
  /-- What is asked for a run carries the seed that was drawn for it. -/
  sent {q : Execution.Request} : q ∈ a.requests →
    ∃ i x, a.box.runs[i]? = some x ∧ q.runId = some x.runId ∧ q.seed = some (s.seedAt i)
  agree {q q' : Execution.Request} : q ∈ a.requests → q' ∈ a.requests → q.runId = q'.runId →
    q.seed = q'.seed
  /-- One seed was drawn for each run, and no other one. -/
  drawn (k : Nat) : a.box.seedAt k = s.seedAt (a.box.runs.length + k)
  /-- The table holds the seeds of those runs that contexts lead to. -/
  table {id : String} {n : Int} : a.box.engineSeeds.lookup id = some n ↔
    ∃ c i x, a.box.contexts.lookup c = some i ∧ a.box.runs[i]? = some x ∧ x.runId = id ∧
      n = s.seedAt i
  /-- A run in flight is still there after a sweep, and so is its seed. -/
  sweep {c : String} {i : Nat} {x : RunInfo} : a.box.contexts.lookup c = some i →
    a.box.runs[i]? = some x → x.inFlight = true →
    ∃ t, (Registry.sweep Contexts.onSweep).Does a.box () t ∧ t.contexts.lookup c = some i ∧
      t.runs[i]? = some x ∧ t.engineSeeds.lookup x.runId = some (s.seedAt i)

theorem Scene.Seeded.oneSeed (h : a.Seeded s) (hs : a.box.Sane) (hd : a.box.DistinctRuns) :
    a.OneSeed s where
  sent hq := by
    obtain ⟨i, id, hi, hid, hseed⟩ := h.sent hq
    obtain ⟨x, hx, rfl⟩ := runIds_getElem?.mp hi
    exact ⟨i, x, hx, hid, hseed⟩
  agree hq hq' heq := by
    obtain ⟨i, id, hi, hid, hseed⟩ := h.sent hq
    obtain ⟨j, id', hj, hid', hseed'⟩ := h.sent hq'
    obtain rfl := Option.some.inj (hid.symm.trans (heq.trans hid'))
    obtain rfl := hd.runIds hi hj
    exact hseed.trans hseed'.symm
  drawn k := by
    have hlength : a.box.runIds.length = a.box.runs.length := List.length_map _
    rw [← hlength]
    exact h.drawn k
  table {id n} := by
    constructor
    · intro hn
      obtain ⟨c, i, hc, hi⟩ := h.needed hn
      obtain ⟨x, hx, hid⟩ := runIds_getElem?.mp hi
      exact ⟨c, i, x, hc, hx, hid, Option.some.inj (hn.symm.trans (h.tracked hc hi))⟩
    · rintro ⟨c, i, x, hc, hx, hid, rfl⟩
      exact h.tracked hc (runIds_getElem?.mpr ⟨x, hx, hid⟩)
  sweep {c i x} hc hx hflight := by
    obtain ⟨t, hdoes, -, hswept⟩ := Registry.does_sweep hs
    refine ⟨t, hdoes, hswept.context hc hx hflight, ?_, ?_⟩
    · rw [hswept.runs]
      exact hx
    · rw [hswept.seed hd hx hflight]
      exact h.tracked hc (runIds_getElem?.mpr ⟨x, hx, rfl⟩)

/-- Each run has one seed, whatever clients do, and in whatever order. -/
theorem Sandbox.Fresh.one_seed (hs : s.Fresh) (hseeds : s.engineSeeds = [])
    (h : Steps ⟨s, [], []⟩ b) (hids : b.box.drawnIds < 16 ^ 8) : b.OneSeed s := by
  have hsane : s.Sane := hs.sound.toSane
  have hmoves := h.moves hsane
  have hb := hmoves.sane hsane
  exact (hmoves.seeded hsane hids (hs.seeded hseeds)).oneSeed hb (hb.distinctRuns hids)

theorem Steps.embark {scopes : List (String × Nat)} {requests : List Execution.Request}
    (h : Steps a ⟨s, scopes, requests⟩) {others : Interrupts} {c : String} {source : Source}
    {prior : List Json} {newest : Option Json} {i : Nat} {q : Execution.Request}
    (hembark : Contexts.embark c source prior newest others s = (.ok (i, q), t)) :
    Steps a ⟨t, scopes, q :: requests⟩ :=
  h.tail (.embark hembark)

/-- The first attempt at a run. -/
def Sandbox.asking : Except Failure (Nat × Execution.Request) × Sandbox :=
  Contexts.embark "a" ⟨"", "", ""⟩ [] none (orderly 0) usual

/-- The program of the first run waits for input. -/
def Sandbox.awaiting (s : Sandbox) : Sandbox :=
  { s with runs := s.runs.modify 0 fun r => { r with last := some { status := .awaitingInput } } }

/-- Another attempt at the run. -/
def Sandbox.askingAgain : Except Failure (Nat × Execution.Request) × Sandbox :=
  Contexts.embark "a" ⟨"", "", ""⟩ [] (some (.str "x")) (orderly 0)
    (Run.landed asking.2.awaiting 0)

/-- Both attempts are for one run, and they have the seed that was drawn first. -/
theorem Sandbox.one_seed_asking : ∃ (b : Scene) (q q' : Execution.Request),
    Steps ⟨usual, [], []⟩ b ∧ b.requests = [q', q] ∧ q.runId = q'.runId ∧ b.OneSeed usual ∧
      q.seed = q'.seed := by
  obtain ⟨hok, hok', hids, hid⟩ : asking.1.toOption.isSome = true ∧
      askingAgain.1.toOption.isSome = true ∧ askingAgain.2.drawnIds < 16 ^ 8 ∧
      asking.1.toOption.map (·.2.runId) = askingAgain.1.toOption.map (·.2.runId) := by
    decide +kernel
  rcases hq : asking with ⟨_ | ⟨i, q⟩, t⟩
  · rw [hq] at hok
    exact absurd hok nofun
  rcases hq' : askingAgain with ⟨_ | ⟨j, q'⟩, u⟩
  · rw [hq'] at hok'
    exact absurd hok' nofun
  rw [hq, hq'] at hid
  rw [hq'] at hids
  have hagain : Contexts.embark "a" ⟨"", "", ""⟩ [] (some (.str "x")) (orderly 0)
      (Run.landed t.awaiting 0) = (.ok (j, q'), u) := by
    rw [askingAgain, hq] at hq'
    exact hq'
  have hdrift : t.Drifts t.awaiting := .modifyRun t 0 fun _ => ⟨rfl, rfl, rfl, rfl, rfl⟩
  have hfirst : Steps ⟨usual, [], []⟩ ⟨t, [], [q]⟩ := Steps.embark .refl hq
  have hlanded : Steps ⟨usual, [], []⟩ ⟨Run.landed t.awaiting 0, [], [q]⟩ :=
    (hfirst.tail (.drift hdrift)).tail (.land _ 0)
  have hsteps := Steps.embark hlanded hagain
  have hone := fresh_usual.one_seed rfl hsteps hids
  have hsame : q.runId = q'.runId := Option.some.inj hid
  exact ⟨_, q, q', hsteps, rfl, hsame, hone,
    hone.agree (List.mem_cons_of_mem _ List.mem_cons_self) List.mem_cons_self hsame⟩

end Rerun
