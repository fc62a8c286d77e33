import Mathlib.Algebra.Group.Nat.Defs
import Rerun.Proofs.Sandbox.Clients

/-!
Sweeps: sessions that nobody has used for long are taken down, and what depends on them is
forgotten. In a sane state a sweep never fails. It starts nothing and takes no time, and the runs in
flight keep their seeds.
-/

namespace Rerun

open Sandbox Op

variable {s t u : Sandbox}

/-! ### Identities of runs -/

namespace Text

theorem hexDigit_inj {n m : Nat} (hn : n < 16) (hm : m < 16) (h : hexDigit n = hexDigit m) :
    n = m := by
  have hall : ∀ a < 16, ∀ b < 16, hexDigit a = hexDigit b → a = b := by decide
  exact hall n hn m hm h

/-- As many digits tell apart as many numbers as there are texts of them. -/
theorem hexDigits_eq {width n m : Nat} (h : hexDigits width n = hexDigits width m) :
    n % 16 ^ width = m % 16 ^ width := by
  induction width generalizing n m with
  | zero => simp [Nat.mod_one]
  | succ width ih =>
      rw [hexDigits, hexDigits] at h
      obtain ⟨hhigh, hlow⟩ := List.append_inj' h rfl
      have hlow := hexDigit_inj (Nat.mod_lt n (by omega)) (Nat.mod_lt m (by omega))
        (List.cons.inj hlow).1
      rw [Nat.pow_succ', Nat.mod_mul, Nat.mod_mul, ih hhigh, hlow]

theorem length_hexDigits (width n : Nat) : (hexDigits width n).length = width := by
  induction width generalizing n with
  | zero => rfl
  | succ width ih => rw [hexDigits, List.length_append, ih, List.length_singleton]

theorem mem_hexDigits {width n : Nat} {c : Char} (h : c ∈ hexDigits width n) :
    ∃ m < 16, hexDigit m = c := by
  induction width generalizing n with
  | zero => exact absurd h List.not_mem_nil
  | succ width ih =>
      rw [hexDigits, List.mem_append] at h
      obtain h | h := h
      · exact ih h
      · exact ⟨n % 16, Nat.mod_lt n (by omega), (List.mem_singleton.mp h).symm⟩

end Text

theorem Run.idOf_inj {n m : Nat} (hn : n < 16 ^ 8) (hm : m < 16 ^ 8)
    (h : Run.idOf n = Run.idOf m) : n = m := by
  have h := congrArg String.toList h
  simp only [Run.idOf, String.toList_append, String.toList_ofList, List.append_cancel_left_eq,
    List.append_cancel_right_eq] at h
  rw [← Nat.mod_eq_of_lt hn, ← Nat.mod_eq_of_lt hm]
  exact Text.hexDigits_eq h

/-- No two runs have one identity. -/
def Sandbox.DistinctRuns (s : Sandbox) : Prop :=
  ∀ (i j : Nat) (x y : RunInfo), s.runs[i]? = some x → s.runs[j]? = some y →
    x.runId = y.runId → i = j

/-- Runs have identities of their own as long as identifiers do not repeat. -/
theorem Sandbox.Sane.distinctRuns (hs : s.Sane) (hids : s.drawnIds < 16 ^ 8) : s.DistinctRuns := by
  obtain ⟨ns, hns, hsorted, hle⟩ := hs.ids
  have hnumber {i : Nat} {x : RunInfo} (hx : s.runs[i]? = some x) :
      ∃ n, ns[i]? = some n ∧ Run.idOf n = x.runId ∧ n < 16 ^ 8 := by
    have h : (ns.map Run.idOf)[i]? = some x.runId := by
      rw [← hns, List.getElem?_map, hx]
      rfl
    rw [List.getElem?_map] at h
    obtain ⟨n, hn, hid⟩ := Option.map_eq_some_iff.mp h
    exact ⟨n, hn, hid, Nat.lt_of_le_of_lt (hle n (List.mem_of_getElem? hn)) hids⟩
  intro i j x y hx hy hxy
  obtain ⟨n, hn, hid, hlt⟩ := hnumber hx
  obtain ⟨m, hm, hid', hlt'⟩ := hnumber hy
  have hnm : n = m := Run.idOf_inj hlt hlt' ((hid.trans hxy).trans hid'.symm)
  rw [← hnm] at hm
  -- The numbers rise with the runs, so that none comes twice.
  have hnodup : ns.Nodup := hsorted.imp fun h => Nat.ne_of_lt h
  exact (List.getElem?_inj (List.getElem?_eq_some_iff.mp hn).1 hnodup).mp (hn.trans hm.symm)

/-! ### What a sweep leaves -/

/-- What is left of a state by a sweep, or by a part of it: sessions and what depends on them are
gone, no process is started, no time passes, and a run in flight keeps its seed and its place. -/
structure Sandbox.Swept (s t : Sandbox) : Prop where
  tables : t = { s with
    sessions := t.sessions, swept := t.swept, folders := t.folders, engineSeeds := t.engineSeeds
    contexts := t.contexts, challengeTable := t.challengeTable, challenges := t.challenges
    children := t.children, handles := t.handles }
  replies : t.replies = s.replies
  session {k : String} {r : Nat} : t.sessions.lookup k = some r → s.sessions.lookup k = some r
  seed {i : Nat} {x : RunInfo} : s.DistinctRuns → s.runs[i]? = some x → x.inFlight = true →
    t.engineSeeds.lookup x.runId = s.engineSeeds.lookup x.runId
  context {c : String} {i : Nat} {x : RunInfo} : s.contexts.lookup c = some i →
    s.runs[i]? = some x → x.inFlight = true → t.contexts.lookup c = some i

/-- What is left of a state when something that depends on a session is forgotten: the sessions
themselves stay as they are. -/
def Sandbox.Forgets (s t : Sandbox) : Prop := t = { s with
  swept := t.swept, engineSeeds := t.engineSeeds, contexts := t.contexts
  challengeTable := t.challengeTable, challenges := t.challenges }

theorem Sandbox.Forgets.trans (h : s.Forgets t) (h' : t.Forgets u) : s.Forgets u := by
  refine Eq.trans h' ?_
  exact congrArg (fun v : Sandbox => { v with
    swept := u.swept, engineSeeds := u.engineSeeds, contexts := u.contexts
    challengeTable := u.challengeTable, challenges := u.challenges }) h

namespace Sandbox.Swept

theorem refl (s : Sandbox) : s.Swept s := ⟨rfl, rfl, id, fun _ _ _ => rfl, fun hc _ _ => hc⟩

theorem runs (h : s.Swept t) : t.runs = s.runs := by rw [h.tables]

theorem records (h : s.Swept t) : t.records = s.records := by rw [h.tables]

theorem trans (h : s.Swept t) (h' : t.Swept u) : s.Swept u where
  tables := by
    refine h'.tables.trans ?_
    exact congrArg (fun v : Sandbox => { v with
      sessions := u.sessions, swept := u.swept, folders := u.folders, engineSeeds := u.engineSeeds
      contexts := u.contexts, challengeTable := u.challengeTable, challenges := u.challenges
      children := u.children, handles := u.handles }) h.tables
  replies := h'.replies.trans h.replies
  session := h.session ∘ h'.session
  seed {i x} hd hx hf := by
    have hd' : t.DistinctRuns := by
      rw [DistinctRuns, h.runs]
      exact hd
    have hx' : t.runs[i]? = some x := by
      rw [h.runs]
      exact hx
    exact (h'.seed hd' hx' hf).trans (h.seed hd hx hf)
  context hc hx hf := by
    have hx' := hx
    rw [← h.runs] at hx'
    exact h'.context (h.context hc hx hf) hx' hf

theorem of_tornDown {key : String} (h : Registry.TornDown key s t) : s.Swept t where
  tables := by rw [h.tables]
  replies := h.replies
  session hk := by
    rw [h.tables] at hk
    exact Assoc.lookup_of_lookup_drop hk
  seed _ _ _ := by rw [h.tables]
  context hc _ _ := by
    rw [h.tables]
    exact hc

end Sandbox.Swept

namespace Contexts

theorem does_forgetRun (hs : s.Sane) (c : String) :
    ∃ t, (forgetRun c).Does s () t ∧ t.Sane ∧ s.Swept t ∧ s.Forgets t := by
  cases hc : s.contexts.lookup c with
  | none =>
      refine ⟨s, fun _ => ?_, hs, .refl s, rfl⟩
      simp [forgetRun, bind_apply, Op.view, run?, hc]
  | some i =>
      obtain ⟨x, hx, -, howner, -⟩ := hs.context hc
      have hrun : (Sandbox.run i).Does s x s := does_need hx
      cases hf : x.inFlight with
      | true =>
          refine ⟨s, fun others => ?_, hs, .refl s, rfl⟩
          simp [forgetRun, bind_apply, Op.view, run?, hc, hrun others, hf]
      | false =>
          refine ⟨{ s with
              contexts := Assoc.drop s.contexts c
              engineSeeds := Assoc.drop s.engineSeeds x.runId }, fun others => ?_,
            { hs.dropContext c with },
            ⟨rfl, rfl, id, fun {j y} hd hy hflight => ?_, fun {c' j y} hj hy hflight => ?_⟩, rfl⟩
          · simp [forgetRun, bind_apply, Op.view, run?, hc, hrun others, hf, Op.change,
              Seeds.forget, howner, Seeds.setTable]
          · -- A run in flight is another one than the run that is forgotten, which is not.
            refine Assoc.lookup_drop_of_ne _ fun hid => ?_
            obtain rfl := hd j i y x hy hx hid
            obtain rfl := Option.some.inj (hx.symm.trans hy)
            exact absurd (hf.symm.trans hflight) Bool.false_ne_true
          · refine (Assoc.lookup_drop_of_ne _ ?_).trans hj
            rintro rfl
            obtain rfl := Option.some.inj (hc.symm.trans hj)
            obtain rfl := Option.some.inj (hx.symm.trans hy)
            exact absurd (hf.symm.trans hflight) Bool.false_ne_true

theorem does_forgetChallenge (hs : s.Sane) (n : String) :
    ∃ t, (forgetChallenge n).Does s () t ∧ t.Sane ∧ s.Swept t ∧ s.Forgets t := by
  cases hn : s.challenges.lookup n with
  | none =>
      refine ⟨s, fun _ => ?_, hs, .refl s, rfl⟩
      simp [forgetChallenge, bind_apply, Op.view, hn]
  | some i =>
      refine ⟨{ s with
          challenges := Assoc.drop s.challenges n
          challengeTable := s.challengeTable.modify i fun c => { c with active := false } },
        fun others => ?_, (hs.dropChallenge n).modifyChallenge i fun _ => rfl,
        ⟨rfl, rfl, id, fun _ _ _ => rfl, fun hc _ _ => hc⟩, rfl⟩
      simp [forgetChallenge, bind_apply, Op.view, hn, Op.change, Challenge.expire, setChallenge]

theorem does_onSweep (hs : s.Sane) (key : String) :
    ∃ t, (onSweep key).Does s () t ∧ t.Sane ∧ s.Swept t ∧ s.Forgets t := by
  have hforget : ∃ t, (forgetFor (splitKey key)).Does s () t ∧ t.Sane ∧ s.Swept t ∧
      s.Forgets t := by
    unfold forgetFor
    split
    · exact does_forgetRun hs _
    · exact does_forgetChallenge hs _
    · exact ⟨s, does_pure (), hs, .refl s, rfl⟩
  obtain ⟨t, hdoes, ht, hswept, hforgets⟩ := hforget
  refine ⟨_, .bind hdoes (does_change _), { ht with }, hswept.trans ?_, hforgets.trans rfl⟩
  exact ⟨rfl, rfl, id, fun _ _ _ => rfl, fun hc _ _ => hc⟩

end Contexts

namespace Registry

/-- What sweeping the sessions of a list comes to: those that were idle at the start of the sweep
are taken down one after the other, and what depends on each is forgotten; the others are passed
over. -/
inductive Sweeps (before : Sandbox) : List (String × Nat) → Sandbox → Sandbox → Prop
  | done (s : Sandbox) : Sweeps before [] s s
  | spare {e : String × Nat} {rest : List (String × Nat)} {s t : Sandbox} {x : Record} :
      s.records[e.2]? = some x → isIdle before x = false → Sweeps before rest s t →
      Sweeps before (e :: rest) s t
  | take {e : String × Nat} {rest : List (String × Nat)} {s t u v : Sandbox} {x : Record} :
      s.records[e.2]? = some x → isIdle before x = true → TornDown e.1 s u →
      (Contexts.onSweep e.1).Does u () v → v.Sane → u.Swept v → u.Forgets v →
      Sweeps before rest v t → Sweeps before (e :: rest) s t

theorem does_sweepAll (hs : s.Sane) (before : Sandbox) {listed : List (String × Nat)}
    (hlisted : ∀ e ∈ listed, e.2 < s.records.length) :
    ∃ t, (sweepAll Contexts.onSweep before listed).Does s () t ∧ Sweeps before listed s t := by
  induction listed generalizing s with
  | nil => exact ⟨s, does_pure (), .done s⟩
  | cons e rest ih =>
      obtain ⟨x, hx⟩ : ∃ x, s.records[e.2]? = some x :=
        ⟨_, List.getElem?_eq_getElem (hlisted e List.mem_cons_self)⟩
      have hrest : ∀ e ∈ rest, e.2 < s.records.length :=
        fun a ha => hlisted a (List.mem_cons_of_mem e ha)
      cases hidle : isIdle before x with
      | false =>
          obtain ⟨t, hdoes, hsweeps⟩ := ih hs hrest
          refine ⟨t, .bind (does_need hx) ?_, .spare hx hidle hsweeps⟩
          rw [hidle]
          exact hdoes
      | true =>
          obtain ⟨u, hreset, htorn⟩ := does_reset hs e.1
          obtain ⟨v, hnote, hv, hswept, hforgets⟩ := Contexts.does_onSweep htorn.sane e.1
          rw [← htorn.records, ← hswept.records] at hrest
          obtain ⟨t, hdoes, hsweeps⟩ := ih hv hrest
          refine ⟨t, .bind (does_need hx) ?_, .take hx hidle htorn hnote hv hswept hforgets hsweeps⟩
          rw [hidle]
          exact .bind hreset (.bind hnote hdoes)

namespace Sweeps

variable {before : Sandbox} {listed : List (String × Nat)}

theorem sane (h : Sweeps before listed s t) (hs : s.Sane) : t.Sane := by
  induction h with
  | done s => exact hs
  | spare _ _ _ ih => exact ih hs
  | take _ _ _ _ hv _ _ _ ih => exact ih hv

theorem swept (h : Sweeps before listed s t) : s.Swept t := by
  induction h with
  | done s => exact .refl s
  | spare _ _ _ ih => exact ih
  | take _ _ htorn _ _ hswept _ _ ih => exact (Swept.of_tornDown htorn).trans (hswept.trans ih)

end Sweeps

/-- A sweep never fails. It goes through the sessions that are registered at its start. -/
theorem sweep_sweeps (hs : s.Sane) :
    ∃ t, (sweep Contexts.onSweep).Does s () t ∧ Sweeps s s.sessions s t := by
  obtain ⟨t, hdoes, hsweeps⟩ := does_sweepAll hs s fun e he => hs.listed he
  exact ⟨t, .bind (does_view _) hdoes, hsweeps⟩

theorem does_sweep (hs : s.Sane) :
    ∃ t, (sweep Contexts.onSweep).Does s () t ∧ t.Sane ∧ s.Swept t := by
  obtain ⟨t, hdoes, hsweeps⟩ := sweep_sweeps hs
  exact ⟨t, hdoes, hsweeps.sane hs, hsweeps.swept⟩

end Registry

end Rerun
