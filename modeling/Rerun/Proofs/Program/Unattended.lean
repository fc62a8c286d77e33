import Rerun.Proofs.Program.ReplayPrefix

/-!
One attempt that somebody can give further values to, and one that nobody can. The two runs of the
program go together, in the same state, until a read of the first finds no value left. So the mode
of an attempt matters only when its values run out (`Serving.attempt_unattended`).
-/

namespace Rerun

namespace Program

/-- Nobody can give further values to the second run. -/
def Coupling.unattended : Coupling where
  feed f := { f with batch := true }
  extra _ _ := []

namespace Unattended

theorem await (prompt : String) : InStep .unattended True (Run.await prompt) where
  onward := .await prompt
  runs m _ hd hb := by
    cases hl : m.feed.left with
    | nil =>
        rw [Run.await_of_nil prompt hl hb]
        refine .inr (.of_demand (d := ⟨true, prompt⟩) hd hl ?_ ?_ ?_) <;>
          simp [Run.await, Run.bind_apply, Run.ofRead, Feed.ask, Feed.take, Feed.dry, hl,
            Machine.coupled, Coupling.unattended, Run.fail, Run.throwNew]
    | cons w ws =>
        have hl' : (m.coupled .unattended).feed.left = w :: ws := hl
        rw [Run.await_of_cons prompt hl, Run.await_of_cons prompt hl']
        exact .inl ⟨rfl, rfl, hd, hb⟩

theorem readLine : InStep .unattended True (Run.ofRead false Feed.readLine) where
  onward := .ofRead Feed.leads_readLine
  runs m _ hd hb := by
    cases hl : m.feed.left with
    | nil =>
        rw [Run.readLine_of_nil hl hb]
        refine .inr (.of_demand (d := ⟨false, ""⟩) hd hl ?_ ?_ ?_) <;>
          simp [Run.ofRead, Feed.readLine, Feed.take, hl, Machine.coupled, Coupling.unattended]
    | cons w ws =>
        have hl' : (m.coupled .unattended).feed.left = w :: ws := hl
        rw [Run.readLine_of_cons hl, Run.readLine_of_cons hl']
        exact .inl ⟨rfl, rfl, hd, hb⟩

theorem readAll : InStep .unattended True (Run.ofRead false Feed.readAll) where
  onward := .ofRead Feed.leads_readAll
  runs m _ hd hb := by
    cases hl : m.feed.left with
    | nil =>
        rw [Run.readAll_of_nil hl hb]
        refine .inr (.of_demand (d := ⟨false, ""⟩) hd hl ?_ ?_ ?_) <;>
          simp [Run.ofRead, Feed.readAll, Feed.drain, hl, Machine.coupled, Coupling.unattended]
    | cons w ws =>
        refine .inl ⟨?_, ?_, ?_, ?_⟩ <;>
          simp [Run.ofRead, Feed.readAll, Feed.drain, hl, Machine.coupled, Coupling.unattended, hd,
            hb]

/-- Every program does the same, whether somebody can give it further values or not, up to the first
read that finds no value left. -/
theorem closed : Closed True (fun {α} => InStep .unattended True (α := α)) :=
  InStep.closed await readLine fun _ => readAll

end Unattended

end Program

namespace Serving

open Program

/-- An attempt that nobody can give values to, beside one that somebody can give values to: it does
the same when no read of the other finds no value left, and it has shown what the other has shown
when that one waits after the first such read. -/
theorem attempt_unattended {r : RunRequest} (hmode : r.mode ≠ "batch") (seed : Option Int) :
    ((attempt seed r).2.demands = [] → attempt seed { r with mode := "batch" } =
      ((attempt seed r).1, (attempt seed r).2.coupled .unattended)) ∧
    ((attempt seed r).2.demands.length ≤ 1 → ∀ p, (attempt seed r).1 = .suspended p →
      (attempt seed r).2.shown <+: (attempt seed { r with mode := "batch" }).2.shown ∧
      ∃ more, (attempt seed { r with mode := "batch" }).2.errors =
        (attempt seed r).2.errors ++ more) := by
  let m := machine .initial (.ofMode r.inputs r.mode r.echoInputs) seed
  have hsecond : attempt seed { r with mode := "batch" } =
      runProgram r.code (m.coupled .unattended) := rfl
  have hfirst : attempt seed r = runProgram r.code m := rfl
  have hdrains : drains r.code = true → True := fun _ => trivial
  have hcoupled := runProgram_coupled Unattended.closed hdrains (m := m) (Names.within_initial True)
    rfl (decide_eq_false hmode)
  rw [← hsecond, ← hfirst] at hcoupled
  obtain ⟨htogether, hdry⟩ | ⟨hdemands, hovertaken⟩ := hcoupled
  · exact ⟨fun _ => htogether, fun _ p hp => absurd hdry (demands_ne_nil hp)⟩
  · refine ⟨fun hdry => absurd hdry hdemands, fun hone p hp => ?_⟩
    have hpos := List.length_pos_iff.mpr hdemands
    obtain ⟨d, hd⟩ := List.length_eq_one_iff.mp (Nat.le_antisymm hone hpos)
    obtain ⟨-, -, -, ⟨texts, hshown⟩, herrors⟩ := hovertaken d p hd hp
    exact ⟨⟨_, by rw [hshown, List.append_assoc]⟩, herrors⟩

end Serving

end Rerun
