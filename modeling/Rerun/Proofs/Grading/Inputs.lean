import Rerun.Proofs.Feed.Stream
import Rerun.Proofs.Grading.Resumed

/-!
The input of a case and the values that its program is given. Cutting the input into values and
writing the values down, one on a line, undo each other up to the newline of the last line
(`splitStdin_inverts`), so that a program which reads its values reads the input itself.
-/

namespace Rerun

/-- A text with a newline at its end, unless it is empty. -/
def Text.ended (s : String) : String :=
  if s = "" ∨ s.toList.getLast? = some '\n' then s else s ++ "\n"

/-- A text without the newline at its very end. -/
def Text.unended (s : String) : String :=
  if s.toList.getLast? = some '\n' then String.ofList s.toList.dropLast else s

variable {values : List String} {s : String}

theorem Feed.linesOf_of_ne_nil (h : values ≠ []) :
    linesOf values = Text.joinLines values ++ "\n" := by
  have hne : values.map String.toList ≠ [] := mt List.map_eq_nil_iff.mp h
  rw [linesOf_eq_joinLines, ← String.toList_inj, String.toList_append, Text.toList_joinLines,
    Text.toList_joinLines, List.map_append, List.map_singleton, intercalate_concat _ hne]
  simp

/-- Without the newline that ends the last of them, lines are joined texts. -/
theorem Feed.unended_linesOf (values : List String) :
    Text.unended (linesOf values) = Text.joinLines values := by
  by_cases h : values = []
  · subst h
    rfl
  · have htext : (linesOf values).toList = (Text.joinLines values).toList ++ ['\n'] := by
      rw [linesOf_of_ne_nil h, String.toList_append]
      rfl
    rw [Text.unended, htext, List.getLast?_concat, if_pos rfl, List.dropLast_concat,
      String.ofList_toList]

theorem Text.unended_append (h : s ≠ "") : unended s ++ "\n" = ended s := by
  rw [unended, ended]
  by_cases hlast : s.toList.getLast? = some '\n'
  · obtain ⟨cs, hcs⟩ := List.getLast?_eq_some_iff.mp hlast
    rw [if_pos hlast, if_pos (.inr hlast), ← String.toList_inj, String.toList_append, hcs]
    simp
  · rw [if_neg hlast, if_neg (not_or.mpr ⟨h, hlast⟩)]

/-- The values of an input are its lines, where only the last newline ends a line. -/
theorem splitStdin_of_ne (h : s ≠ "") : splitStdin s = Text.lines (Text.unended s) := by
  rw [splitStdin, if_neg h, Text.unended]
  dsimp only
  split
  · rw [Text.lines, String.toList_ofList]
  · rw [Text.lines]

theorem not_mem_of_mem_splitStdin {v : String} (h : v ∈ splitStdin s) : '\n' ∉ v.toList := by
  by_cases hs : s = ""
  · subst hs
    exact absurd h List.not_mem_nil
  · rw [splitStdin_of_ne hs] at h
    exact Text.not_mem_of_mem_lines h

theorem linesOf_splitStdin (s : String) : Feed.linesOf (splitStdin s) = Text.ended s := by
  by_cases h : s = ""
  · subst h
    rfl
  · have hne : Text.lines (Text.unended s) ≠ [] :=
      mt List.map_eq_nil_iff.mp (Text.splitAt_ne_nil _ _)
    rw [splitStdin_of_ne h, Feed.linesOf_of_ne_nil hne, Text.joinLines_lines, Text.unended_append h]

/-- Values that were written down one on a line are read back, blank ones included; without the very
last newline they are too, but for a last one that is blank. What is read of any input holds no
newlines and gives the input back, and whatever a program calls to read its values, it reads what it
would read of the input. -/
theorem splitStdin_inverts :
    (∀ values : List String, (∀ v ∈ values, '\n' ∉ v.toList) →
      splitStdin (Feed.linesOf values) = values ∧
      splitStdin (Text.unended (Feed.linesOf values)) =
        if values.getLast? = some "" then values.dropLast else values) ∧
    ∀ s : String, (∀ v ∈ splitStdin s, '\n' ∉ v.toList) ∧
      Feed.linesOf (splitStdin s) = Text.ended s ∧
      ∀ (calls : List Feed.Call) (echo : Bool),
        (Feed.trace calls (.ofMode (splitStdin s) RunMode.batch.name echo)).map Feed.Event.reply =
          Feed.repliesOnText calls (Text.ended s).toList := by
  refine ⟨fun values h => ⟨splitStdin_linesOf h, ?_⟩, fun s => ?_⟩
  · rw [Feed.unended_linesOf, splitStdin_joinLines h]
  · have hlines : ∀ v ∈ splitStdin s, '\n' ∉ v.toList := fun _ => not_mem_of_mem_splitStdin
    refine ⟨hlines, linesOf_splitStdin s, fun calls echo => ?_⟩
    rw [← linesOf_splitStdin]
    exact Feed.replies_trace (f := .ofMode (splitStdin s) RunMode.batch.name echo) rfl hlines calls

/-- Blank values in the middle and at the end. -/
theorem splitStdin_inverts_blank :
    (∀ v ∈ ["a", "", "b", ""], '\n' ∉ v.toList) ∧
      splitStdin "a\n\nb\n\n" = ["a", "", "b", ""] ∧ splitStdin "a\n\nb\n" = ["a", "", "b"] := by
  have hlines : ∀ v ∈ ["a", "", "b", ""], '\n' ∉ v.toList := by decide
  obtain ⟨hended, hunended⟩ := splitStdin_inverts.1 _ hlines
  exact ⟨hlines, hended, hunended⟩

end Rerun
