import Rerun.Proofs.Sandbox.Attempts
import Rerun.Proofs.Sandbox.Frames
import Rerun.Proofs.Sandbox.Sweeps

/-!
What an attempt leaves of its run. While a run is in flight its program, its queue and its last
outcome stay what they are, and it keeps its seed and its place (`Sandbox.Steady`): the execution
only counts the values that were read, and sweeps spare the run. So an attempt that ends without an
outcome ends with the run that it began with.
-/

namespace Rerun

open Sandbox Op

variable {s t u : Sandbox} {others : Interrupts} {i : Nat}

/-! ### What an attempt leaves of its run -/

/-- A run that is the same as another one, but for its cursor, how often it was attempted and
whether its event is set. -/
structure RunInfo.Same (x y : RunInfo) : Prop where
  source : y.source = x.source
  key : y.key = x.key
  timeout : y.timeout = x.timeout
  runId : y.runId = x.runId
  owner : y.owner = x.owner
  values : y.queue.values = x.queue.values
  last : y.last = x.last
  inFlight : y.inFlight = x.inFlight

namespace RunInfo.Same

variable {x y z : RunInfo}

theorem refl (x : RunInfo) : x.Same x := ⟨rfl, rfl, rfl, rfl, rfl, rfl, rfl, rfl⟩

theorem trans (h : x.Same y) (h' : y.Same z) : x.Same z where
  source := h'.source.trans h.source
  key := h'.key.trans h.key
  timeout := h'.timeout.trans h.timeout
  runId := h'.runId.trans h.runId
  owner := h'.owner.trans h.owner
  values := h'.values.trans h.values
  last := h'.last.trans h.last
  inFlight := h'.inFlight.trans h.inFlight

theorem awaitsInput (h : x.Same y) : y.awaitsInput = x.awaitsInput := by
  rw [RunInfo.awaitsInput, RunInfo.awaitsInput, h.last]

end RunInfo.Same

/-- The run `x` is the same in a later state, where it has its seed and its place. -/
structure Sandbox.Retains (s : Sandbox) (i : Nat) (x : RunInfo) (t : Sandbox) : Prop where
  run : ∃ y, t.runs[i]? = some y ∧ x.Same y
  seed {n : Int} : (Seeds.table x.owner s).lookup x.runId = some n →
    (Seeds.table x.owner t).lookup x.runId = some n
  place {c : String} : s.contexts.lookup c = some i → t.contexts.lookup c = some i

/-- A run stays what it is, as long as it is in flight. -/
def Sandbox.Steady (i : Nat) (s t : Sandbox) : Prop :=
  ∀ ⦃x⦄, s.runs[i]? = some x → x.inFlight = true → s.Retains i x t

theorem Seeds.table_of_sameRuns (h : s.SameRuns t) (owner : SeedOwner) :
    table owner t = table owner s := by
  cases owner with
  | engine => exact h.engineSeeds
  | other => exact h.otherSeeds

theorem Seeds.table_withRuns (s : Sandbox) (owner : SeedOwner) (rs : List RunInfo) :
    table owner { s with runs := rs } = table owner s := by
  cases owner <;> rfl

theorem Sandbox.isFrame_steady (i : Nat) : IsFrame (Steady i) where
  same {s t} h x hx _ := by
    refine ⟨⟨x, ?_, .refl x⟩, fun hn => ?_, fun hc => ?_⟩
    · rw [h.runs]
      exact hx
    · rw [Seeds.table_of_sameRuns h]
      exact hn
    · rw [h.contexts]
      exact hc
  trans {s t u} h h' x hx hf := by
    obtain ⟨⟨y, hy, hxy⟩, hseed, hplace⟩ := h hx hf
    obtain ⟨⟨z, hz, hyz⟩, hseed', hplace'⟩ := h' hy (hxy.inFlight.trans hf)
    rw [hxy.owner, hxy.runId] at hseed'
    exact ⟨⟨z, hz, hxy.trans hyz⟩, hseed' ∘ hseed, hplace' ∘ hplace⟩

/-- Other clients who leave a run alone while it is in flight. -/
def Interrupts.Spare (others : Interrupts) (i : Nat) : Prop :=
  ∀ (commands : List Command) (s : Sandbox), s.Steady i (others commands s)

theorem Sandbox.Swept.steady (h : s.Swept t) (hd : s.DistinctRuns) : s.Steady i t := by
  intro x hx hf
  refine ⟨⟨x, ?_, .refl x⟩, fun hn => ?_, fun hc => h.context hc hx hf⟩
  · rw [h.runs]
    exact hx
  · cases howner : x.owner with
    | engine =>
        rw [howner] at hn
        exact (h.seed hd hx hf).trans hn
    | other =>
        rw [howner] at hn
        rw [h.tables]
        exact hn

theorem Registry.relates_acquire {R : Sandbox → Sandbox → Prop} (hR : IsFrame R) (hs : s.Sane)
    (hothers : ∀ commands s, R s (others commands s)) (hsweep : ∀ t, s.Swept t → R s t)
    (key : Option String) : R s (acquire Contexts.onSweep key others s).2 := by
  obtain ⟨t, hdoes, -, hswept⟩ := does_sweep hs
  rw [acquire, hdoes.step]
  exact hR.trans (hsweep t hswept) (frames_got hR key hothers t)

/-- What holds along a sweep, and along the count of values, holds along an execution. -/
theorem Execution.relates_execute {R : Sandbox → Sandbox → Prop} (hR : IsFrame R) (hs : s.Sane)
    (hothers : ∀ commands s, R s (others commands s)) (hsweep : ∀ t, s.Swept t → R s t)
    {consumed : Int → Op Unit} (hconsumed : ∀ n, (consumed n).Frames R) (r : Request) :
    R s (execute Contexts.onSweep consumed r others s).2 := by
  have hacquire := Registry.relates_acquire hR hs hothers hsweep (some r.key)
  refine hR.bind_at hothers hacquire fun result => ?_
  split
  · exact frames_executeLocal hR hconsumed r _
  · exact hR.composes.unseated (fun remote maxWait started =>
      (Op.pervades_requests.executeRemote remote maxWait r started).frames hR) _

theorem Execution.steady_execute (hs : s.Sane) (hd : s.DistinctRuns) (hspare : others.Spare i)
    {consumed : Int → Op Unit} (hconsumed : ∀ n, (consumed n).Frames (Steady i)) (r : Request) :
    s.Steady i (execute Contexts.onSweep consumed r others s).2 :=
  relates_execute (isFrame_steady i) hs hspare (fun _ h => h.steady hd) hconsumed r

def Sandbox.SameIds (s t : Sandbox) : Prop := t.runs.map (·.runId) = s.runs.map (·.runId)

theorem Sandbox.isFrame_sameIds : IsFrame SameIds where
  same h := by rw [SameIds, h.runs]
  trans h h' := h'.trans h

theorem Sandbox.SameIds.modifyRun (s : Sandbox) (i : Nat) (f : RunInfo → RunInfo)
    (hf : ∀ x, (f x).runId = x.runId) : s.SameIds { s with runs := s.runs.modify i f } :=
  Table.map_modify hf _ _

theorem Run.sameIds_begun (s : Sandbox) (i : Nat) : s.SameIds (begun s i) :=
  .modifyRun s i (fun r => { r with inFlight := true }) fun _ => rfl

theorem Run.sameIds_rewound (s : Sandbox) (i : Nat) : s.SameIds (rewound s i) :=
  .modifyRun s i (fun r => { r with queue := r.queue.rewind, attempts := r.attempts + 1 })
    fun _ => rfl

theorem Run.sameIds_landed (s : Sandbox) (i : Nat) : s.SameIds (landed s i) :=
  .modifyRun s i (fun r => { r with inFlight := false }) fun _ => rfl

theorem Sandbox.SameIds.distinctRuns (h : s.SameIds t) (hd : s.DistinctRuns) : t.DistinctRuns := by
  have hfound {j : Nat} {y : RunInfo} (hy : t.runs[j]? = some y) :
      ∃ x, s.runs[j]? = some x ∧ x.runId = y.runId := by
    have hj := congrArg (·[j]?) h
    simp only [List.getElem?_map, hy, Option.map_some] at hj
    exact Option.map_eq_some_iff.mp hj.symm
  intro j k y z hy hz hyz
  obtain ⟨x, hx, hid⟩ := hfound hy
  obtain ⟨x', hx', hid'⟩ := hfound hz
  exact hd j k x x' hx hx' (hid.trans (hyz.trans hid'.symm))

/-! ### Seeds -/

namespace Seeds

/-- A state in which more seeds are drawn than in another one: none of them is lost. -/
structure Adds (s t : Sandbox) : Prop where
  runs : t.runs = s.runs
  contexts : t.contexts = s.contexts
  drawnIds : t.drawnIds = s.drawnIds
  sane : s.Sane → t.Sane
  kept {owner : SeedOwner} {id : String} {n : Int} :
    (table owner s).lookup id = some n → (table owner t).lookup id = some n

theorem Adds.refl (s : Sandbox) : Adds s s := ⟨rfl, rfl, rfl, id, id⟩

theorem adds_put (s : Sandbox) {owner : SeedOwner} {id : String}
    (hnone : (table owner s).lookup id = none) (n : Int) (rest : List Int) (next : Int) :
    Adds s (setTable owner (Assoc.put · id n) { s with seeds := rest, nextSeed := next }) := by
  have hput {xs : List (String × Int)} (hxs : xs.lookup id = none) {id' : String} {m : Int}
      (hm : xs.lookup id' = some m) : (Assoc.put xs id n).lookup id' = some m := by
    have hne : id' ≠ id := by
      rintro rfl
      exact absurd (hxs.symm.trans hm) nofun
    exact (Assoc.lookup_put_of_ne _ _ hne).trans hm
  cases owner with
  | engine =>
      refine ⟨rfl, rfl, rfl, fun hs => { hs with }, fun {owner' id' m} hm => ?_⟩
      cases owner' with
      | engine => exact hput hnone hm
      | other => exact hm
  | other =>
      refine ⟨rfl, rfl, rfl, fun hs => { hs with }, fun {owner' id' m} hm => ?_⟩
      cases owner' with
      | engine => exact hm
      | other => exact hput hnone hm

theorem lookup_setTable_put (s : Sandbox) (owner : SeedOwner) (id : String) (n : Int) :
    (table owner (setTable owner (Assoc.put · id n) s)).lookup id = some n := by
  cases owner with
  | engine => exact Assoc.lookup_put_self _ _ _
  | other => exact Assoc.lookup_put_self _ _ _

theorem draw_adds (s : Sandbox) (owner : SeedOwner) (id : String) :
    ∃ n t, (draw owner id).Does s n t ∧ Adds s t ∧ (table owner t).lookup id = some n ∧
      ((table owner s).lookup id = none → n = s.seedAt 0) := by
  cases hn : (table owner s).lookup id with
  | some n =>
      refine ⟨n, s, fun others => ?_, .refl s, hn, nofun⟩
      simp [draw, bind_apply, Op.view, hn]
  | none =>
      cases hseeds : s.seeds with
      | nil =>
          refine ⟨s.nextSeed, _, fun others => ?_,
            adds_put s hn s.nextSeed s.seeds (s.nextSeed + 1),
            lookup_setTable_put _ _ _ _, fun _ => ?_⟩
          · simp [draw, bind_apply, Op.view, Op.change, drawSeed, hn, hseeds]
          · simp [Sandbox.seedAt, hseeds]
      | cons n rest =>
          refine ⟨n, _, fun others => ?_, adds_put s hn n rest s.nextSeed,
            lookup_setTable_put _ _ _ _, fun _ => ?_⟩
          · simp [draw, bind_apply, Op.view, Op.change, drawSeed, hn, hseeds]
          · simp [Sandbox.seedAt, hseeds]

end Seeds

namespace Run

variable {x : RunInfo}

theorem frames_markConsumed (i : Nat) (n : Int) : (markConsumed i n).Frames (Steady i) := by
  intro others _ s x hx _
  refine ⟨⟨_, Table.getElem?_modify_eq_some.mpr ⟨x, hx, rfl⟩, ?_⟩, fun hm => ?_, id⟩
  · rw [if_pos rfl]
    exact ⟨rfl, rfl, rfl, rfl, rfl, rfl, rfl, rfl⟩
  · exact (congrArg (List.lookup x.runId) (Seeds.table_withRuns s _ _)).trans hm

/-- What is left of a state when a request is made of a run: the run is the same, and it has the
seed of the request, which is the next one if it had none. -/
structure Prepared (s : Sandbox) (i : Nat) (x : RunInfo) (n : Int) (t : Sandbox) : Prop where
  run : ∃ y, t.runs[i]? = some y ∧ x.Same y
  found : (Seeds.table x.owner t).lookup x.runId = some n
  fresh : (Seeds.table x.owner s).lookup x.runId = none → n = s.seedAt 0
  kept {owner : SeedOwner} {id : String} {m : Int} :
    (Seeds.table owner s).lookup id = some m → (Seeds.table owner t).lookup id = some m
  contexts : t.contexts = s.contexts
  drawnIds : t.drawnIds = s.drawnIds
  sane : s.Sane → t.Sane

theorem does_prepare_any (hx : s.runs[i]? = some x) :
    ∃ n t, (prepare i).Does s (x.request i n) t ∧ Prepared s i x n t := by
  obtain ⟨n, t, hdraw, hadds, hfound, hnext⟩ := Seeds.draw_adds (rewound s i) x.owner x.runId
  have hrewound : (rewound s i).runs[i]? =
      some { x with queue := x.queue.rewind, attempts := x.attempts + 1 } :=
    Table.getElem?_modify_eq_some.mpr ⟨x, hx, by rw [if_pos rfl]⟩
  have hrun : (run i).Does (rewound s i) _ (rewound s i) := does_need hrewound
  refine ⟨n, t, (does_change _).bind (hrun.bind (hdraw.bind (does_pure _))), {
    found := hfound
    contexts := hadds.contexts
    drawnIds := hadds.drawnIds
    run := ?_, fresh := fun hnone => hnext ?_, kept := fun hm => hadds.kept ?_
    sane := fun hs => hadds.sane (hs.modifyRun i fun _ => ⟨rfl, rfl, rfl, rfl⟩) }⟩
  · rw [hadds.runs]
    exact ⟨_, hrewound, rfl, rfl, rfl, rfl, rfl, rfl, rfl, rfl⟩
  · rw [rewound, Seeds.table_withRuns]
    exact hnone
  · rw [rewound, Seeds.table_withRuns]
    exact hm

/-- An attempt that fails has left the run what it was, until it landed. -/
theorem conclude_error (hs : s.Sane) (hd : s.DistinctRuns) (hspare : others.Spare i)
    {q : Execution.Request} {echo : Option Json} {e : Failure}
    (h : conclude i q echo others s = (.error e, t)) : ∃ u, s.Steady i u ∧ t = landed u i := by
  have hsteady := Execution.steady_execute hs hd hspare (frames_markConsumed i) q
  rw [conclude_eq] at h
  obtain ⟨herror, rfl⟩ := Prod.mk.inj h
  refine ⟨_, ?_, rfl⟩
  -- What an attempt does after its execution does not fail.
  rw [undergo, bind_apply] at herror ⊢
  rcases hexecute : Execution.execute Contexts.onSweep (markConsumed i) q others s with ⟨e' | o, u⟩
  · rw [hexecute] at hsteady
    exact hsteady
  · rw [hexecute] at herror
    exact absurd herror nofun

end Run

end Rerun
