import Rerun.Proofs.Program.ReplayPrefix

/-!
What a program writes itself, apart from the values that are shown because they were read
(`Program.wrote`). An attempt with no values shows what its program writes, and one that continues
an attempt that waits shows what was shown before, perhaps the value, and then what its program
writes from there on (`Serving.attempt_continues`).
-/

namespace Rerun

namespace Program

def Piece.isWritten : Piece → Bool
  | .written _ => true
  | .echoed _ => false

/-- The text that a program has written itself. -/
def wrote (ps : List Piece) : String := transcript (ps.filter Piece.isWritten)

theorem wrote_append (ps qs : List Piece) : wrote (ps ++ qs) = wrote ps ++ wrote qs := by
  rw [wrote, List.filter_append, transcript_append]
  rfl

theorem wrote_written (texts : List String) :
    wrote (texts.map .written) = transcript (texts.map .written) := by
  have hfilter : (texts.map Piece.written).filter Piece.isWritten = texts.map .written :=
    List.filter_eq_self.mpr fun p hp => by
      obtain ⟨text, -, rfl⟩ := List.mem_map.mp hp
      rfl
  rw [wrote, hfilter]

theorem Demand.wrote_echo (d : Demand) (feed : Feed) (v : String) : wrote (d.echo feed v) = "" := by
  unfold Demand.echo
  split <;> rfl

end Program

namespace Serving

open Program

variable {r : RunRequest} {seed : Option Int} {p : String}

theorem wrote_attempt_of_inputs (h : r.inputs = []) :
    wrote (attempt seed r).2.shown = transcript (attempt seed r).2.shown := by
  have hleads := leads_runProgram r.code
    (m := machine .initial (.ofMode r.inputs r.mode r.echoInputs) seed) (Names.within_initial True)
  obtain ⟨texts, htexts⟩ := hleads.spent h
  have hshown : (attempt seed r).2.shown = texts.map .written := htexts
  rw [hshown, wrote_written]

/-- An attempt that waits has shown what comes first in the attempt with one more value. That one
goes on with the value, if the read shows its values, and with what the program writes from there
on. -/
theorem attempt_continues (hmode : r.mode ≠ "batch") (hreads : drains r.code = false)
    (hone : (attempt seed r).2.demands.length ≤ 1) (hwaits : (attempt seed r).1 = .suspended p)
    (v : String) : ∃ d text, (attempt seed r).2.demands = [d] ∧ d.prompt = p ∧
      transcript (attempt seed { r with inputs := r.inputs ++ [v] }).2.shown =
        transcript (attempt seed r).2.shown ++
          (if d.prompted && r.echoInputs then v ++ "\n" else "") ++ text ∧
      wrote (attempt seed { r with inputs := r.inputs ++ [v] }).2.shown =
        wrote (attempt seed r).2.shown ++ text := by
  let m := machine .initial (.ofMode r.inputs r.mode r.echoInputs) seed
  have hfirst : attempt seed r = runProgram r.code m := rfl
  have hsecond : attempt seed { r with inputs := r.inputs ++ [v] } =
      runProgram r.code (m.given v) := rfl
  have hdrains : drains r.code = true → False := by simp [hreads]
  have hcoupled := runProgram_coupled (Coupled.closed v) hdrains (m := m)
    (Names.within_initial False) rfl (decide_eq_false hmode)
  rw [← hsecond, ← hfirst] at hcoupled
  have hpos := demands_ne_nil hwaits
  obtain ⟨-, hdry⟩ | ⟨-, hovertaken⟩ := hcoupled
  · exact absurd hdry hpos
  obtain ⟨d, hd⟩ :=
    List.length_eq_one_iff.mp (Nat.le_antisymm hone (List.length_pos_iff.mpr hpos))
  obtain ⟨hprompt, -, -, ⟨texts, hshown⟩, -⟩ := hovertaken d p hd hwaits
  have hecho : (attempt seed r).2.feed.echo = r.echoInputs :=
    (leads_runProgram r.code (m := m) (Names.within_initial True)).feed.echo
  refine ⟨d, transcript (texts.map .written), hd, hprompt, ?_, ?_⟩
  · rw [hshown, transcript_append, transcript_append, d.transcript_echo, hecho]
  · rw [hshown, wrote_append, wrote_append, d.wrote_echo, String.append_empty, wrote_written]

end Serving

end Rerun
