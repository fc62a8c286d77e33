import Mathlib.Data.List.TakeWhile
import Rerun.Text.Blank

/-!
The words of a text are what was laid out in it, whatever blanks stand between and around them
(`words_eq_iff`): a text has one list of words only, and nothing but blanks besides. Blanks at
either end belong to no word, so that stripping a text leaves its words as they are (`words_strip`).
-/

namespace Rerun.Text

variable {c : Char} {cs gap rest w : List Char} {ws : List (List Char)}

/-! ### Cutting at a blank -/

theorem pieces_ne_nil (cs : List Char) : pieces cs ≠ [] := by
  induction cs with
  | nil => simp [pieces]
  | cons c cs ih =>
      rw [pieces]
      split
      · exact List.cons_ne_nil _ _
      · cases h : pieces cs with
        | nil => exact absurd h ih
        | cons p ps => exact List.cons_ne_nil _ _

theorem pieces_append_cons (hc : isBlank c = true) (cs ds : List Char) :
    pieces (cs ++ c :: ds) = pieces cs ++ pieces ds := by
  induction cs with
  | nil => simp [pieces, hc]
  | cons d cs ih =>
      rw [List.cons_append, pieces, pieces, ih]
      split
      · rfl
      · cases h : pieces cs with
        | nil => exact absurd h (pieces_ne_nil cs)
        | cons p ps => rfl

/-- A blank parts the words before it from those after it. All else follows from this. -/
theorem wordsOf_append_cons (hc : isBlank c = true) (cs ds : List Char) :
    wordsOf (cs ++ c :: ds) = wordsOf cs ++ wordsOf ds := by
  rw [wordsOf, pieces_append_cons hc, List.filter_append]
  rfl

theorem wordsOf_blanks_append (hgap : ∀ c ∈ gap, isBlank c = true) (cs : List Char) :
    wordsOf (gap ++ cs) = wordsOf cs := by
  induction gap with
  | nil => rfl
  | cons c gap ih =>
      obtain ⟨hc, hgap⟩ := List.forall_mem_cons.mp hgap
      exact (wordsOf_append_cons hc [] (gap ++ cs)).trans (ih hgap)

theorem wordsOf_blanks (hgap : ∀ c ∈ gap, isBlank c = true) : wordsOf gap = [] := by
  have h := wordsOf_blanks_append hgap []
  rwa [List.append_nil] at h

theorem wordsOf_append_blanks (cs : List Char) (hgap : ∀ c ∈ gap, isBlank c = true) :
    wordsOf (cs ++ gap) = wordsOf cs := by
  cases gap with
  | nil => rw [List.append_nil]
  | cons c gap =>
      obtain ⟨hc, hgap⟩ := List.forall_mem_cons.mp hgap
      rw [wordsOf_append_cons hc, wordsOf_blanks hgap, List.append_nil]

/-! ### Words laid out in a text -/

/-- Characters that make up a word: at least one, and no blank. -/
structure IsWord (w : List Char) : Prop where
  ne : w ≠ []
  solid : ∀ c ∈ w, isBlank c = false

/-- A text in which words stand one after the other. There are any blanks before and after them, and
at least one between two of them. -/
inductive LaidOut : List (List Char) → List Char → Prop where
  | blanks {gap : List Char} : (∀ c ∈ gap, isBlank c = true) → LaidOut [] gap
  | word {gap w rest : List Char} {ws : List (List Char)} : (∀ c ∈ gap, isBlank c = true) →
    IsWord w → LaidOut ws rest → (∀ c ∈ rest.head?, isBlank c = true) →
    LaidOut (w :: ws) (gap ++ (w ++ rest))

def HasWords (s : String) (ws : List String) : Prop := LaidOut (ws.map String.toList) s.toList

theorem pieces_of_solid (h : ∀ c ∈ w, isBlank c = false) : pieces w = [w] := by
  induction w with
  | nil => rfl
  | cons c w ih =>
      obtain ⟨hc, h⟩ := List.forall_mem_cons.mp h
      rw [pieces, if_neg (Bool.not_eq_true _ ▸ hc), ih h]
      rfl

theorem wordsOf_of_isWord (hw : IsWord w) : wordsOf w = [w] := by
  rw [wordsOf, pieces_of_solid hw.solid]
  simp [hw.ne]

theorem LaidOut.wordsOf_eq (h : LaidOut ws cs) : wordsOf cs = ws := by
  induction h with
  | blanks hgap => exact wordsOf_blanks hgap
  | @word gap w rest ws hgap hw _ hparted ih =>
      rw [wordsOf_blanks_append hgap]
      cases rest with
      | nil =>
          obtain rfl : [] = ws := ih
          rw [List.append_nil, wordsOf_of_isWord hw]
      | cons c rest =>
          have hc : isBlank c = true := hparted c rfl
          have hrest : wordsOf (c :: rest) = wordsOf rest := wordsOf_append_cons hc [] rest
          rw [wordsOf_append_cons hc, wordsOf_of_isWord hw, ← hrest, ih]
          rfl

theorem LaidOut.cons_blank (h : LaidOut ws cs) (hc : isBlank c = true) : LaidOut ws (c :: cs) := by
  cases h with
  | blanks hgap => exact .blanks (List.forall_mem_cons.mpr ⟨hc, hgap⟩)
  | word hgap hw hrest hparted =>
      exact .word (List.forall_mem_cons.mpr ⟨hc, hgap⟩) hw hrest hparted

/-- A character that is no blank makes the first word longer, or is a word of its own. -/
theorem LaidOut.cons_solid (h : LaidOut ws cs) (hc : isBlank c = false) :
    ∃ ws', LaidOut ws' (c :: cs) := by
  have hnone : ∀ d ∈ ([] : List Char), isBlank d = true := nofun
  have hone : IsWord [c] := ⟨List.cons_ne_nil c [], by simpa using hc⟩
  cases h with
  | blanks hgap =>
      refine ⟨[[c]], .word (w := [c]) hnone hone (.blanks hgap) fun d hd => hgap d ?_⟩
      exact List.mem_of_mem_head? hd
  | @word gap w rest ws hgap hw hrest hparted =>
      cases gap with
      | nil =>
          have hlonger : IsWord (c :: w) :=
            ⟨List.cons_ne_nil c w, List.forall_mem_cons.mpr ⟨hc, hw.solid⟩⟩
          exact ⟨(c :: w) :: ws, .word hnone hlonger hrest hparted⟩
      | cons d gap =>
          refine ⟨[c] :: w :: ws, .word (w := [c]) hnone hone (.word hgap hw hrest hparted) ?_⟩
          intro e he
          exact Option.some.inj he ▸ hgap d List.mem_cons_self

theorem exists_laidOut (cs : List Char) : ∃ ws, LaidOut ws cs := by
  induction cs with
  | nil => exact ⟨[], .blanks nofun⟩
  | cons c cs ih =>
      obtain ⟨ws, h⟩ := ih
      cases hc : isBlank c with
      | true => exact ⟨ws, h.cons_blank hc⟩
      | false => exact h.cons_solid hc

theorem laidOut_iff : LaidOut ws cs ↔ wordsOf cs = ws := by
  refine ⟨LaidOut.wordsOf_eq, ?_⟩
  rintro rfl
  obtain ⟨ws, h⟩ := exists_laidOut cs
  exact h.wordsOf_eq.symm ▸ h

/-- The words of a text are those that are laid out in it. -/
theorem words_eq_iff {s : String} {ws : List String} : words s = ws ↔ HasWords s ws := by
  have hread : (wordsOf s.toList).map String.ofList = ws ↔
      wordsOf s.toList = ws.map String.toList := by
    constructor
    · rintro rfl
      simp
    · intro h
      simp [h]
  rw [HasWords, laidOut_iff, words, hread]

/-! ### Stripping -/

theorem wordsOf_stripChars (cs : List Char) : wordsOf (stripChars cs) = wordsOf cs := by
  have hend (ds : List Char) : wordsOf (dropEndWhile isBlank ds) = wordsOf ds := by
    have hcut := List.takeWhile_append_dropWhile (p := isBlank) (l := ds.reverse)
    have hds : dropEndWhile isBlank ds ++ (ds.reverse.takeWhile isBlank).reverse = ds := by
      rw [dropEndWhile, ← List.reverse_append, hcut, List.reverse_reverse]
    have hgap : ∀ c ∈ (ds.reverse.takeWhile isBlank).reverse, isBlank c = true := fun c hc =>
      List.mem_takeWhile_imp (List.mem_reverse.mp hc)
    rw [← wordsOf_append_blanks _ hgap, hds]
  have hgap : ∀ c ∈ cs.takeWhile isBlank, isBlank c = true := fun c => List.mem_takeWhile_imp
  rw [stripChars, hend, ← wordsOf_blanks_append hgap, List.takeWhile_append_dropWhile]

/-- The blanks around a text are no part of its words. -/
theorem words_strip (s : String) : words (strip s) = words s := by
  rw [words, strip, String.toList_ofList, wordsOf_stripChars, words]

end Rerun.Text
