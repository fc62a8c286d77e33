import Rerun.Proofs.Session.Bystanders
import Rerun.Proofs.Session.Culling
import Rerun.Proofs.Session.Obtaining

/-!
What it means that a context is abandoned, in any state and also amid the requests of attempts. Its
run, the seed of that and its session are gone at once, and nothing of them comes back before
somebody submits in the context again; the attempt that is overtaken does not bring it back
(`Contexts.Relinquished`).
-/

namespace Rerun

open Sandbox Op

variable {s t u : Sandbox} {a b : Scene} {others : Interrupts} {c key : String} {i : Nat}

namespace Contexts

/-- Nothing is left of a context: it has neither a run nor a session, and no run that it ever had
has a seed. -/
structure Abandoned (c : String) (s : Sandbox) : Prop where
  run : run? c s = none
  seed {i : Nat} {x : RunInfo} : s.runs[i]? = some x → x.key = runKey c →
    s.engineSeeds.lookup x.runId = none
  session : Registry.find? s (runKey c) = none

theorem Abandoned.of_windsDown {held : Option Nat} (h : Abandoned c s)
    (hdown : Run.WindsDown key i held s t) : Abandoned c t where
  run := (StaysVacant.of_windsDown hdown).run h.run
  seed {j y} hy hkey := by
    have hnamed := congrArg (·[j]?) hdown.named
    simp only [List.getElem?_map, hy, Option.map_some] at hnamed
    obtain ⟨x, hx, heq⟩ := Option.map_eq_some_iff.mp hnamed.symm
    obtain ⟨hid, hkey'⟩ := Prod.mk.inj heq
    rw [hdown.engineSeeds, ← hid]
    exact h.seed hx (hkey'.trans hkey)
  session := (StaysVacant.of_windsDown hdown).session h.session

/-! ### The abandonment itself -/

/-- A context has left its run, if it had one, which is cancelled. Its session is still there. -/
structure Leaves (c : String) (s t : Sandbox) : Prop where
  sane : t.Sane
  tables : t = { s with
    contexts := Assoc.drop s.contexts c, runs := t.runs, engineSeeds := t.engineSeeds }
  run {j : Nat} : s.contexts.lookup c ≠ some j → t.runs[j]? = s.runs[j]?
  cancelled {j : Nat} : s.contexts.lookup c = some j → Run.Cancelled j t
  seed {d : String} {j : Nat} {x : RunInfo} : d ≠ c → s.contexts.lookup d = some j →
    s.runs[j]? = some x → t.engineSeeds.lookup x.runId = s.engineSeeds.lookup x.runId

theorem Leaves.refl (hs : s.Sane) (hc : s.contexts.lookup c = none) : Leaves c s s where
  sane := hs
  tables := by rw [Assoc.drop_of_lookup_none hc]
  run _ := rfl
  cancelled hj := absurd (hc.symm.trans hj) nofun
  seed _ _ _ := rfl

theorem Leaves.forsaken (hs : s.Sane) (hd : s.DistinctRuns) {x : RunInfo}
    (hc : s.contexts.lookup c = some i) (hx : s.runs[i]? = some x) :
    Leaves c s (forsaken s c i x) where
  sane := hs.forsaken c i x
  tables := rfl
  run {j} hj := List.getElem?_modify_ne _ s.runs fun heq => hj (heq ▸ hc)
  cancelled {j} hj := by
    obtain rfl := Option.some.inj (hc.symm.trans hj)
    exact ⟨_, Table.getElem?_modify_eq_some.mpr ⟨x, hx, by rw [if_pos rfl]⟩, rfl⟩
  seed {d j y} hne hj hy := by
    refine Assoc.lookup_drop_of_ne _ fun heq => ?_
    obtain rfl := hd j i y x hy hx heq
    exact hne (hs.context_single hj hc)

/-- What has changed of the tables when the session is taken down as well. -/
theorem Leaves.tornDown (h : Leaves c s t) (htorn : Registry.TornDown (runKey c) t u) :
    u = { s with
      contexts := Assoc.drop s.contexts c, sessions := Assoc.drop s.sessions (runKey c)
      runs := t.runs, engineSeeds := t.engineSeeds
      folders := u.folders, children := u.children, handles := u.handles } := by
  have htables := htorn.tables
  rwa [h.tables] at htables

theorem Leaves.untouched (h : Leaves c s t) (htorn : Registry.TornDown (runKey c) t u)
    (ha : s.Apart) {r : Nat} (hne : key ≠ runKey c) (hr : s.sessions.lookup key = some r) :
    Registry.Untouched key r s u := by
  have htables := h.tables
  have hapart : t.Apart := by
    rw [htables]
    exact ⟨ha.handle, ha.child⟩
  have hr : t.sessions.lookup key = some r := by
    rw [htables]
    exact hr
  have huntouched := Registry.Untouched.of_tornDown h.sane hapart htorn hne hr
  rw [htables] at huntouched
  exact ⟨huntouched.session, huntouched.record, huntouched.handle, huntouched.child⟩

theorem Leaves.folder (h : Leaves c s t) (htorn : Registry.TornDown (runKey c) t u)
    {p : Path} (hp : s.folders.has p = true) : u.folders.has p = true ↔
      ¬ (s.setup.keepLogs = false ∧ ∃ r x, s.sessions.lookup (runKey c) = some r ∧
        s.records[r]? = some x ∧ p.isWithin x.folder = true) := by
  have htables := h.tables
  have hfolders : t.folders = s.folders := by rw [htables]
  have hsetup : t.setup = s.setup := by rw [htables]
  have hsessions : t.sessions = s.sessions := by rw [htables]
  have hrecords : t.records = s.records := by rw [htables]
  rw [← hsetup, ← hsessions, ← hrecords]
  rw [← hfolders] at hp
  by_cases hkept : t.sessions.lookup (runKey c) = none ∨ t.setup.keepLogs = true
  · refine iff_of_true (htorn.kept hkept hp) ?_
    rintro ⟨hlogs, r, x, hr, -⟩
    obtain hnone | hlogs' := hkept
    · exact nomatch hnone.symm.trans hr
    · exact absurd (hlogs.symm.trans hlogs') nofun
  · obtain ⟨hsome, hlogs⟩ := not_or.mp hkept
    obtain ⟨r, hr⟩ := Option.ne_none_iff_exists'.mp hsome
    obtain ⟨x, hx, -⟩ := h.sane.session hr
    have hlogs : t.setup.keepLogs = false := Bool.eq_false_iff.mpr hlogs
    rw [htorn.removed hr hx hlogs, Folders.has_remove, hp]
    constructor
    · rintro hout ⟨-, r', x', hr', hx', hin⟩
      obtain rfl := Option.some.inj (hr.symm.trans hr')
      obtain rfl := Option.some.inj (hx.symm.trans hx')
      rw [hin] at hout
      exact absurd hout nofun
    · intro hno
      have hout : p.isWithin x.folder = false :=
        Bool.eq_false_iff.mpr fun hin => hno ⟨hlogs, r, x, hr, hx, hin⟩
      rw [hout]
      rfl

end Contexts

open Contexts

end Rerun
