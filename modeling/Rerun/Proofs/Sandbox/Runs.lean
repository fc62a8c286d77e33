import Rerun.Proofs.Sandbox.Executions

/-!
Runs keep the sandbox sound. A run is in flight during an attempt, and only then does it use the
session of its context; the run of a context can be left at any time, and takes its session with it.
-/

namespace Rerun

open Sandbox Op

variable {alone : Prop} {s : Sandbox}

/-! ### Contexts -/

namespace Contexts

theorem runKey_injective {c c' : String} (h : runKey c = runKey c') : c = c' := by
  have h := congrArg String.toList h
  rw [runKey, runKey, String.toList_append, String.toList_append] at h
  exact String.toList_inj.mp (List.append_cancel_left h)

theorem runKey_ne_empty (c : String) : runKey c ≠ "" := by
  intro h
  have h := congrArg (·.toList.head?) h
  simp [runKey, String.toList_append] at h

theorem challengeKey_ne_empty (n : String) : challengeKey n ≠ "" := by
  intro h
  have h := congrArg (·.toList.head?) h
  simp [challengeKey, String.toList_append] at h

theorem ne_runKey {key : String} (h : key.toList.head? ≠ some 'r') (c : String) :
    key ≠ runKey c := by
  rintro rfl
  simp [runKey, String.toList_append] at h

theorem challengeKey_ne_runKey (n c : String) : challengeKey n ≠ runKey c :=
  ne_runKey (by simp [challengeKey, String.toList_append]) c

def Idle (c : String) (s : Sandbox) : Prop :=
  ∀ ⦃i x⦄, s.contexts.lookup c = some i → s.runs[i]? = some x → x.inFlight = false

end Contexts

theorem Registry.claimed_of_ne {key : String} (h : ∀ c, key ≠ Contexts.runKey c) (s : Sandbox) :
    Claimed key s :=
  fun c hc => absurd hc (h c)

namespace Op.Keeps

theorem setRun (i : Nat) {f : RunInfo → RunInfo}
    (hf : ∀ x, (f x).source = x.source ∧ (f x).key = x.key ∧ (f x).timeout = x.timeout ∧
      (f x).runId = x.runId ∧ (f x).owner = x.owner ∧ (f x).inFlight = x.inFlight) :
    Keeps alone (Sandbox.setRun i f) :=
  .change fun _ hs => hs.modifyRun i hf

end Op.Keeps

/-! ### Seeds -/

/-- The seeds that are to be drawn, in order. -/
def Sandbox.seedAt (s : Sandbox) (k : Nat) : Int :=
  s.seeds[k]?.getD (s.nextSeed + (k - s.seeds.length : Nat))

namespace Seeds

theorem sane_setTable (hs : s.Sane) (owner : SeedOwner)
    (f : List (String × Int) → List (String × Int)) : (setTable owner f s).Sane := by
  cases owner with
  | engine => exact { hs with }
  | other => exact { hs with }

theorem sound_setTable (hs : s.Sound) (owner : SeedOwner)
    (f : List (String × Int) → List (String × Int)) :
    (setTable owner f s).Sound ∧ Meanwhile alone s (setTable owner f s) := by
  cases owner with
  | engine => exact ⟨{ hs with }, { Meanwhile.refl s with }⟩
  | other => exact ⟨{ hs with }, { Meanwhile.refl s with }⟩

theorem keeps_draw (owner : SeedOwner) (runId : String) : (draw owner runId).Keeps alone := by
  refine .bind (.view _) fun found => ?_
  split
  · exact .pure _
  · exact .bind .drawSeed fun n => .bind (.change fun s hs => sound_setTable hs owner _) fun _ =>
      .pure _

/-- What drawing the seed of a run leaves: a run that has one keeps it, and another one is given the
next of those that are to be drawn. -/
structure Drawn (s : Sandbox) (runId : String) (n : Int) (t : Sandbox) : Prop where
  tables : t = { s with seeds := t.seeds, nextSeed := t.nextSeed, engineSeeds := t.engineSeeds }
  found : t.engineSeeds.lookup runId = some n
  kept {m : Int} : s.engineSeeds.lookup runId = some m → t = s
  next : s.engineSeeds.lookup runId = none → n = s.seedAt 0 ∧
    t.engineSeeds = Assoc.put s.engineSeeds runId n ∧ ∀ k, t.seedAt k = s.seedAt (k + 1)

theorem Drawn.withRuns {t : Sandbox} {runId : String} {n : Int} (h : Drawn s runId n t)
    (rs : List RunInfo) : Drawn { s with runs := rs } runId n { t with runs := rs } where
  tables := congrArg (fun v : Sandbox => { v with runs := rs }) h.tables
  found := h.found
  kept hm := congrArg (fun v : Sandbox => { v with runs := rs }) (h.kept hm)
  next := h.next

theorem does_draw (s : Sandbox) (runId : String) :
    ∃ n t, (draw .engine runId).Does s n t ∧ Drawn s runId n t := by
  cases hn : s.engineSeeds.lookup runId with
  | some n =>
      refine ⟨n, s, fun others => ?_, rfl, hn, fun _ => rfl,
        fun h => absurd (hn.symm.trans h) nofun⟩
      simp [draw, bind_apply, Op.view, table, hn]
  | none =>
      have hno {m : Int} : s.engineSeeds.lookup runId ≠ some m := by
        rw [hn]
        exact (Option.some_ne_none m).symm
      cases hseeds : s.seeds with
      | nil =>
          refine ⟨s.nextSeed, { s with
            nextSeed := s.nextSeed + 1
            engineSeeds := Assoc.put s.engineSeeds runId s.nextSeed }, fun others => ?_,
            by rw [hseeds], Assoc.lookup_put_self _ _ _, fun h => absurd h hno,
            fun _ => ⟨?_, rfl, fun k => ?_⟩⟩
          · simp [draw, bind_apply, Op.view, Op.change, drawSeed, table, setTable, hn, hseeds]
          · simp [Sandbox.seedAt, hseeds]
          · simp [Sandbox.seedAt, hseeds]
            omega
      | cons n rest =>
          refine ⟨n, { s with
            seeds := rest, engineSeeds := Assoc.put s.engineSeeds runId n }, fun others => ?_,
            rfl, Assoc.lookup_put_self _ _ _, fun h => absurd h hno,
            fun _ => ⟨?_, rfl, fun k => ?_⟩⟩
          · simp [draw, bind_apply, Op.view, Op.change, drawSeed, table, setTable, hn, hseeds]
          · simp [Sandbox.seedAt, hseeds]
          · simp [Sandbox.seedAt, hseeds]

theorem keeps_find? (owner : SeedOwner) (runId : String) : (find? owner runId).Keeps alone :=
  .view _

theorem keeps_forget (owner : SeedOwner) (runId : String) : (forget owner runId).Keeps alone :=
  .change fun _ hs => sound_setTable hs owner _

end Seeds

/-! ### Attempts -/

namespace Run

theorem does_create (s : Sandbox) (source : Source) (key : String) (timeout : Binary64)
    (values : List String) : (create .engine source key timeout values none).Does s s.runs.length
      { s with
        drawnIds := s.drawnIds + 1
        runs := s.runs ++ [{ source, key, timeout, queue := { values }
                             runId := Run.idOf (s.drawnIds + 1), owner := .engine }] } :=
  fun _ => rfl

end Run

namespace Run

def Flying (c : String) (i : Nat) (s : Sandbox) : Prop :=
  s.contexts.lookup c = some i ∧ ∃ x, s.runs[i]? = some x ∧ x.inFlight = true

variable {c : String} {i : Nat}

theorem Flying.meanwhile {t : Sandbox} (h : Flying c i s) (hm : Meanwhile True s t) :
    Flying c i t := by
  obtain ⟨hc, x, hx, hf⟩ := h
  obtain ⟨y, hy, -, -, -, -, -, hf'⟩ := hm.run hx
  obtain hc' | ⟨hn, -⟩ := hm.context hc hx hf
  · exact ⟨hc', y, hy, hf'.trans hf⟩
  · exact absurd trivial hn

theorem Flying.claimed (h : Flying c i s) (hs : s.Sound) {x : RunInfo} (hx : s.runs[i]? = some x) :
    x.key = Contexts.runKey c ∧ Registry.Claimed x.key s := by
  obtain ⟨hc, y, hy, hf⟩ := h
  obtain rfl := Option.some.inj (hx.symm.trans hy)
  obtain ⟨z, hz, hkey, -⟩ := hs.context hc
  obtain rfl := Option.some.inj (hx.symm.trans hz)
  refine ⟨hkey, fun c' hc' => ⟨i, x, ?_, hx, hf⟩⟩
  rw [← Contexts.runKey_injective (hkey.symm.trans hc')]
  exact hc

theorem keeps_markConsumed (i : Nat) (n : Int) : (markConsumed i n).Keeps alone :=
  .setRun i fun _ => by simp

theorem safe_prepare (hs : s.Sound) (h : Flying c i s) :
    (prepare i).Ends s fun res t => t.Sound ∧ Meanwhile True s t ∧
      ∀ request, res = .ok request → request.key ≠ "" ∧ Registry.Claimed request.key t := by
  have hrewind : (Sandbox.setRun i fun r =>
      { r with queue := r.queue.rewind, attempts := r.attempts + 1 }).Keeps True :=
    .setRun i fun _ => by simp
  have hneed : (Sandbox.run i).Keeps True := .need _
  have hdraw (x : RunInfo) : (Seeds.draw x.owner x.runId).Keeps True := Seeds.keeps_draw _ _
  have failed {e : Failure} {t : Sandbox} (ht : t.Sound ∧ Meanwhile True s t) : t.Sound ∧
      Meanwhile True s t ∧ ∀ request, .error e = (.ok request : Except Failure Execution.Request) →
        request.key ≠ "" ∧ Registry.Claimed request.key t :=
    ⟨ht.1, ht.2, fun _ hr => absurd hr (by simp)⟩
  refine Ends.bind (hrewind s hs) (fun _ s₁ h₁ => ?_) fun _ _ h => failed h
  have hfly := h.meanwhile h₁.2
  refine Ends.bind (Ends.gives (hneed s₁ h₁.1)) (fun x s₂ h₂ => ?_)
    fun _ _ h => failed ⟨h.1.1, h₁.2.trans h.1.2⟩
  obtain ⟨hx, rfl⟩ := (h₂.2 x rfl).need
  obtain ⟨hkey, hclaimed⟩ := hfly.claimed h₁.1 hx
  refine Ends.bind (hdraw x s₂ h₁.1) (fun seed s₃ h₃ => ?_)
    fun _ _ h => failed ⟨h.1, h₁.2.trans h.2⟩
  refine .of_apply (fun _ => rfl) ⟨h₃.1, h₁.2.trans h₃.2, fun request hr => ?_⟩
  rw [← Except.ok.inj hr]
  refine ⟨?_, hclaimed.meanwhile h₃.2⟩
  show x.key ≠ ""
  rw [hkey]
  exact Contexts.runKey_ne_empty c

theorem safe_attempt (hs : s.Sound) {listener : String → Op Unit}
    (hl : ∀ key, (listener key).Keeps True) (h : Flying c i s) (echo : Option Json) :
    (attempt listener i echo).Safe False s := by
  refine Ends.bind (safe_prepare hs h) (fun request t ht => ?_)
    fun _ _ h => ⟨h.1, h.2.1.weaken fun _ => trivial⟩
  obtain ⟨ht, hm, hrequest⟩ := ht
  obtain ⟨hkey, hclaimed⟩ := hrequest request rfl
  have hrest : Safe False (do
      let outcome ← Execution.execute listener (markConsumed i) request
      setRun i fun r => { r with last := some (outcome.echoing echo) }
      pure (outcome.echoing echo)) t :=
    .bind (Execution.safe_execute ht hl (keeps_markConsumed i) hkey hclaimed) id
      fun outcome u hu _ _ =>
        Keeps.bind (.setRun i fun _ => by simp) (fun _ => .pure _) u hu
  exact hrest.mono fun _ u hu => ⟨hu.1, (hm.weaken fun _ => trivial).trans hu.2⟩

/-- A run that was not in flight is begun. -/
def begun (s : Sandbox) (i : Nat) : Sandbox :=
  { s with runs := s.runs.modify i fun r => { r with inFlight := true } }

def landed (s : Sandbox) (i : Nat) : Sandbox :=
  { s with runs := s.runs.modify i fun r => { r with inFlight := false } }

theorem flying_begun {x : RunInfo} (hc : s.contexts.lookup c = some i) (hx : s.runs[i]? = some x) :
    Flying c i (begun s i) :=
  ⟨hc, { x with inFlight := true }, Table.getElem?_modify_eq_some.mpr
    ⟨x, hx, by rw [if_pos rfl]⟩, rfl⟩

theorem sound_begun (hs : s.Sound) (i : Nat) : (begun s i).Sound := by
  have hsane : (begun s i).Sane := hs.toSane.modifyRun i fun _ => ⟨rfl, rfl, rfl, rfl⟩
  refine { hsane with claim := fun hk hx hl => ?_ }
  obtain ⟨j, x, hc, hx, hf⟩ := hs.claim hk hx hl
  refine ⟨j, _, hc, Table.getElem?_modify_eq_some.mpr ⟨x, hx, rfl⟩, ?_⟩
  split
  · rfl
  · exact hf

theorem free_of_idle (hs : s.Sound) (h : Contexts.Idle c s) :
    Registry.Free (Contexts.runKey c) s := by
  intro r y hr hy
  cases hl : y.locked with
  | false => rfl
  | true =>
      obtain ⟨i, x, hc, hx, hf⟩ := hs.claim hr hy hl
      exact absurd ((h hc hx).symm.trans hf) nofun

theorem getElem?_begun {j : Nat} {y : RunInfo} (hy : s.runs[j]? = some y) :
    (begun s i).runs[j]? = some (if i = j then { y with inFlight := true } else y) :=
  Table.getElem?_modify_eq_some.mpr ⟨y, hy, rfl⟩

/-- What becomes of the runs while one of them is under way: only that one may differ in whether it
is in flight. -/
theorem run_of_begun {t : Sandbox} (hm : Meanwhile False (begun s i) t) {j : Nat} {y : RunInfo}
    (hy : s.runs[j]? = some y) : ∃ z, t.runs[j]? = some z ∧ z.source = y.source ∧ z.key = y.key ∧
      z.timeout = y.timeout ∧ z.runId = y.runId ∧ z.owner = y.owner ∧
      (i ≠ j → z.inFlight = y.inFlight) := by
  obtain ⟨z, hz, h1, h2, h3, h4, h5, h6⟩ := hm.run (getElem?_begun hy)
  refine ⟨z, hz, ?_⟩
  rw [h1, h2, h3, h4, h5, h6]
  split
  · exact ⟨rfl, rfl, rfl, rfl, rfl, fun h => absurd ‹_› h⟩
  · exact ⟨rfl, rfl, rfl, rfl, rfl, fun _ => rfl⟩

theorem meanwhile_landed {x : RunInfo} (hx : s.runs[i]? = some x) (hidle : x.inFlight = false)
    {t : Sandbox} (hm : Meanwhile False (begun s i) t) : Meanwhile False s (landed t i) := by
  refine { hm with run := fun {j y} hy => ?_, landed := fun {j y} hy hn => ?_,
                   context := fun {c' j y} hc' hy hf => ?_ }
  · obtain ⟨z, hz, h1, h2, h3, h4, h5, h6⟩ := run_of_begun hm hy
    refine ⟨_, Table.getElem?_modify_eq_some.mpr ⟨z, hz, rfl⟩, ?_⟩
    split
    · rename_i hij
      subst hij
      obtain rfl := Option.some.inj (hx.symm.trans hy)
      exact ⟨h1, h2, h3, h4, h5, hidle.symm⟩
    · exact ⟨h1, h2, h3, h4, h5, h6 ‹_›⟩
  · obtain ⟨z, hz, rfl⟩ := Table.getElem?_modify_eq_some.mp hy
    split
    · rfl
    · exact hm.landed hz (Table.getElem?_modify_eq_none.mpr hn)
  · refine hm.context hc' (getElem?_begun hy) ?_
    split
    · rfl
    · exact hf

theorem sound_landed (hs : s.Sound) {x : RunInfo} (hc : s.contexts.lookup c = some i)
    (hx : s.runs[i]? = some x) (hidle : x.inFlight = false) {t : Sandbox} (ht : t.Sound)
    (hm : Meanwhile False (begun s i) t) : (landed t i).Sound := by
  have hsane : (landed t i).Sane := ht.toSane.modifyRun i fun _ => ⟨rfl, rfl, rfl, rfl⟩
  refine { hsane with claim := fun {c' r y} hk hy hl => ?_ }
  obtain ⟨j, z, hc', hz, hf⟩ := ht.claim hk hy hl
  refine ⟨j, _, hc', Table.getElem?_modify_eq_some.mpr ⟨z, hz, rfl⟩, ?_⟩
  split
  · -- Only the context of the run has it, and nobody holds the session of that context.
    rename_i hij
    subst hij
    obtain ⟨w, hw, -, hkey, -⟩ := run_of_begun hm hx
    obtain rfl := Option.some.inj (hw.symm.trans hz)
    obtain ⟨v, hv, hkey', -⟩ := ht.context hc'
    obtain rfl := Option.some.inj (hw.symm.trans hv)
    obtain ⟨u, hu, hkey'', -⟩ := hs.context hc
    obtain rfl := Option.some.inj (hx.symm.trans hu)
    have hcc : c' = c := Contexts.runKey_injective ((hkey'.symm.trans hkey).trans hkey'')
    rw [hcc] at hk
    have hcidle : Contexts.Idle c s := by
      intro i' x' hc' hx'
      obtain rfl := Option.some.inj (hc.symm.trans hc')
      rw [← Option.some.inj (hx.symm.trans hx')]
      exact hidle
    have hfree : Registry.Free (Contexts.runKey c) (begun s i) :=
      fun _ _ hr hy => free_of_idle hs hcidle hr hy
    exact absurd (hl.symm.trans (hfree.meanwhile (sound_begun hs i).toSane hm hk hy)) nofun
  · exact hf

theorem safe_inFlight {α : Type} (hs : s.Sound) (hc : s.contexts.lookup c = some i)
    (busy : String → Failure) {x : Op α}
    (hx : ∀ t, t.Sound → Flying c i t → x.Safe False t) : (inFlight i busy x).Safe False s := by
  refine .bind (Keeps.need _ s hs) id fun y s₁ hs₁ _ hg => ?_
  obtain ⟨hy, rfl⟩ := hg.need
  split
  · exact .fail hs₁ _
  · have hidle : y.inFlight = false := Bool.eq_false_iff.mpr ‹_›
    refine Ends.bind (Q := fun r t => r = .ok () ∧ t = begun s₁ i)
      (.of_apply (fun _ => rfl) ⟨rfl, rfl⟩) (fun _ t h => ?_) fun _ _ h => absurd h.1 nofun
    obtain ⟨-, rfl⟩ := h
    refine Ends.ensuring (hx _ (sound_begun hs₁ i) (flying_begun hc hy)) fun r t h => ?_
    exact .of_apply (fun _ => rfl)
      ⟨sound_landed hs₁ hc hy hidle h.1 h.2, meanwhile_landed hy hidle h.2⟩

theorem safe_start (hs : s.Sound) (hc : s.contexts.lookup c = some i)
    {listener : String → Op Unit} (hl : ∀ key, (listener key).Keeps True) (echo : Option Json) :
    (start listener i echo).Safe False s := by
  refine safe_inFlight hs hc _ fun t ht h => ?_
  refine .bind (Keeps.need _ t ht) id fun x t₁ ht₁ _ hg => ?_
  obtain ⟨-, rfl⟩ := hg.need
  refine .bind_alone (Seeds.keeps_draw _ _ _ ht₁) fun seed t₂ ht₂ hm _ => ?_
  exact safe_attempt ht₂ hl (h.meanwhile hm) echo

theorem safe_resume (hs : s.Sound) (hc : s.contexts.lookup c = some i)
    {listener : String → Op Unit} (hl : ∀ key, (listener key).Keeps True) (value : Json) :
    (resume listener i value).Safe False s := by
  refine safe_inFlight hs hc _ fun t ht h => ?_
  refine .bind (Keeps.need _ t ht) id fun x t₁ ht₁ _ hg => ?_
  obtain ⟨-, rfl⟩ := hg.need
  split
  · refine .bind_alone (Keeps.setRun i (fun _ => by simp) _ ht₁) fun _ t₂ ht₂ hm _ => ?_
    exact safe_attempt ht₂ hl (h.meanwhile hm) (some value)
  · exact .fail ht₁ _

theorem passes_info (i : Nat) : (info i).Passes :=
  .bind (.need _) fun _ => .bind (.view _) fun _ => .pure _

/-! ### Giving runs up -/

/-- A run is marked as abandoned and its seed is forgotten. -/
def cancelled (s : Sandbox) (i : Nat) (x : RunInfo) : Sandbox :=
  Seeds.setTable x.owner (Assoc.drop · x.runId)
    { s with runs := s.runs.modify i fun r => { r with cancelled := true } }

theorem sane_cancelled (hs : s.Sane) (i : Nat) (x : RunInfo) : (cancelled s i x).Sane :=
  Seeds.sane_setTable (hs.modifyRun i fun _ => by simp) _ _

theorem does_cancel (hs : s.Sane) {x : RunInfo} (hx : s.runs[i]? = some x) :
    ∃ t, (cancel i).Does s () t ∧ Registry.TornDown x.key (cancelled s i x) t := by
  obtain ⟨t, hreset, ht⟩ := Registry.does_reset (sane_cancelled hs i x) x.key
  refine ⟨t, .bind (does_change _) (.bind (does_need (Table.getElem?_modify_eq_some.mpr
    ⟨x, hx, rfl⟩)) ?_), ht⟩
  rw [if_pos rfl]
  exact .bind (does_change _) hreset

end Run

end Rerun
