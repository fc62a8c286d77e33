import Mathlib.Algebra.Group.Nat.Defs
import Mathlib.Data.List.TakeWhile
import Rerun.Text.Lines
import Rerun.Text.Numeral

/-!
Cutting a text at a separator undoes joining pieces with it, when no piece holds the separator and
there is a piece at all; texts that are joined keep their lines. A text that is cut at line ends of
every kind can be cut at a newline first. Blanks around a text are dropped and nothing else is, and
a number is read from its digits. A text file is read as it was written unless a carriage return was
written to it.
-/

namespace Rerun.Text

/-- What is said of the characters of a text is decided along the text, not along all characters
that there are. -/
instance (priority := high) decidableAll (p : Char → Prop) [DecidablePred p] (cs : List Char) :
    Decidable (∀ c ∈ cs, p c) :=
  List.decidableBAll p cs

variable {sep : Char} {piece : List Char}

theorem splitAt_append_cons (sep : Char) (cs ds : List Char) :
    splitAt sep (cs ++ sep :: ds) = splitAt sep cs ++ splitAt sep ds := by
  induction cs with
  | nil => simp [splitAt]
  | cons c cs ih =>
      rw [List.cons_append, splitAt, splitAt, ih]
      split
      · rfl
      · cases h : splitAt sep cs with
        | nil => exact absurd h (splitAt_ne_nil sep cs)
        | cons w ws => rfl

theorem splitAt_of_not_mem (h : sep ∉ piece) : splitAt sep piece = [piece] := by
  induction piece with
  | nil => rfl
  | cons c piece ih =>
      have hc : c ≠ sep := fun hc => h (hc ▸ List.mem_cons_self)
      rw [splitAt, if_neg hc, ih fun hm => h (List.mem_cons_of_mem c hm)]
      rfl

theorem splitAt_append (h : sep ∉ piece) (cs : List Char) :
    splitAt sep (piece ++ sep :: cs) = piece :: splitAt sep cs := by
  rw [splitAt_append_cons, splitAt_of_not_mem h]
  rfl

theorem length_splitAt (sep : Char) (cs : List Char) :
    (splitAt sep cs).length = cs.count sep + 1 := by
  induction cs with
  | nil => rfl
  | cons c cs ih =>
      rw [splitAt]
      split
      · rename_i hc
        rw [List.length_cons, ih, hc, List.count_cons_self]
      · rename_i hc
        rw [List.count_cons_of_ne hc, ← ih]
        cases h : splitAt sep cs with
        | nil => exact absurd h (splitAt_ne_nil sep cs)
        | cons w ws => rfl

theorem of_mem_splitAt {cs : List Char} {c : Char} (hpiece : piece ∈ splitAt sep cs)
    (hc : c ∈ piece) : c ∈ cs := by
  induction cs generalizing piece with
  | nil =>
      rw [splitAt, List.mem_singleton] at hpiece
      exact hpiece ▸ hc
  | cons d cs ih =>
      rw [splitAt] at hpiece
      split at hpiece
      · rcases List.mem_cons.mp hpiece with rfl | hpiece
        · exact absurd hc List.not_mem_nil
        · exact List.mem_cons_of_mem d (ih hpiece hc)
      · cases hsplit : splitAt sep cs with
        | nil => exact absurd hsplit (splitAt_ne_nil sep cs)
        | cons w ws =>
            rw [hsplit] at hpiece ih
            rcases List.mem_cons.mp hpiece with rfl | hpiece
            · rcases List.mem_cons.mp hc with rfl | hc
              · exact List.mem_cons_self
              · exact List.mem_cons_of_mem d (ih List.mem_cons_self hc)
            · exact List.mem_cons_of_mem d (ih (List.mem_cons_of_mem w hpiece) hc)

theorem splitAt_intercalate {pieces : List (List Char)} (hne : pieces ≠ [])
    (h : ∀ p ∈ pieces, sep ∉ p) : splitAt sep (List.intercalate [sep] pieces) = pieces := by
  induction pieces with
  | nil => exact absurd rfl hne
  | cons p pieces ih =>
      have hp : sep ∉ p := h p List.mem_cons_self
      cases pieces with
      | nil =>
          rw [List.intercalate_singleton]
          exact splitAt_of_not_mem hp
      | cons q rest =>
          rw [List.intercalate_cons_cons, List.append_assoc, List.singleton_append,
            splitAt_append hp, ih (List.cons_ne_nil q rest) fun r hr =>
              h r (List.mem_cons_of_mem p hr)]

theorem not_mem_of_mem_splitAt {cs : List Char} (h : piece ∈ splitAt sep cs) : sep ∉ piece := by
  induction cs generalizing piece with
  | nil =>
      rw [splitAt, List.mem_singleton] at h
      exact h ▸ List.not_mem_nil
  | cons c cs ih =>
      rw [splitAt] at h
      split at h
      · rcases List.mem_cons.mp h with rfl | h
        · exact List.not_mem_nil
        · exact ih h
      · rename_i hc
        cases hsplit : splitAt sep cs with
        | nil => exact absurd hsplit (splitAt_ne_nil sep cs)
        | cons w ws =>
            rw [hsplit] at h ih
            rcases List.mem_cons.mp h with rfl | h
            · intro hmem
              obtain rfl | hmem := List.mem_cons.mp hmem
              · exact hc rfl
              · exact ih List.mem_cons_self hmem
            · exact ih (List.mem_cons_of_mem w h)

theorem intercalate_splitAt (sep : Char) (cs : List Char) :
    List.intercalate [sep] (splitAt sep cs) = cs := by
  induction cs with
  | nil => rfl
  | cons c cs ih =>
      obtain ⟨w, ws, hsplit⟩ := List.exists_cons_of_ne_nil (splitAt_ne_nil sep cs)
      rw [splitAt, hsplit]
      rw [hsplit] at ih
      split
      · rename_i hc
        rw [List.intercalate_cons_cons, ih, hc]
        rfl
      · cases ws with
        | nil =>
            rw [consWord, List.intercalate_singleton]
            rw [List.intercalate_singleton] at ih
            rw [ih]
        | cons u us =>
            rw [consWord, List.intercalate_cons_cons]
            rw [List.intercalate_cons_cons] at ih
            rw [List.cons_append, List.cons_append, ih]

/-- A joined text holds nothing that neither the pieces nor what joins them hold. -/
theorem of_mem_intercalate {glue : List Char} {pieces : List (List Char)} {c : Char}
    (h : c ∈ List.intercalate glue pieces) : c ∈ glue ∨ ∃ p ∈ pieces, c ∈ p := by
  induction pieces with
  | nil => exact absurd h List.not_mem_nil
  | cons p pieces ih =>
      cases pieces with
      | nil =>
          rw [List.intercalate_singleton] at h
          exact .inr ⟨p, List.mem_cons_self, h⟩
      | cons q rest =>
          rw [List.intercalate_cons_cons, List.mem_append, List.mem_append] at h
          rcases h with (hp | hglue) | hrest
          · exact .inr ⟨p, List.mem_cons_self, hp⟩
          · exact .inl hglue
          · obtain hglue | ⟨r, hr, hc⟩ := ih hrest
            · exact .inl hglue
            · exact .inr ⟨r, List.mem_cons_of_mem p hr, hc⟩

theorem toList_joinLines (ls : List String) :
    (joinLines ls).toList = List.intercalate ['\n'] (ls.map String.toList) := by
  rw [joinLines, String.toList_intercalate]
  rfl

theorem joinLines_lines (s : String) : joinLines (lines s) = s := by
  have hlines : (lines s).map String.toList = splitAt '\n' s.toList := by
    rw [lines, List.map_map]
    simp
  rw [← String.toList_inj, toList_joinLines, hlines, intercalate_splitAt]

theorem not_mem_of_mem_lines {s line : String} (h : line ∈ lines s) : '\n' ∉ line.toList := by
  obtain ⟨cs, hcs, rfl⟩ := List.mem_map.mp h
  rw [String.toList_ofList]
  exact not_mem_of_mem_splitAt hcs

theorem length_lines (s : String) : (lines s).length = s.toList.count '\n' + 1 := by
  rw [lines, List.length_map, length_splitAt]

/-- Joined texts have the lines of the one and then those of the other. -/
theorem lines_joinLines {parts : List String} (hne : parts ≠ []) :
    lines (joinLines parts) = parts.flatMap lines := by
  rw [lines, toList_joinLines]
  induction parts with
  | nil => exact absurd rfl hne
  | cons part parts ih =>
      cases parts with
      | nil =>
          rw [List.map_singleton, List.intercalate_singleton, List.flatMap_cons, List.flatMap_nil,
            List.append_nil]
          rfl
      | cons next rest =>
          rw [List.map_cons, List.map_cons, List.intercalate_cons_cons, List.append_assoc,
            List.singleton_append, splitAt_append_cons, List.map_append, List.flatMap_cons,
            ← ih (List.cons_ne_nil next rest)]
          rfl

/-! ### Line ends, blanks and digits -/

theorem consWord_append (c : Char) {ws : List (List Char)} (h : ws ≠ []) (us : List (List Char)) :
    consWord c (ws ++ us) = consWord c ws ++ us := by
  cases ws with
  | nil => exact absurd rfl h
  | cons w ws => rfl

/-- A character begins a line or ends an empty one, unless it forms one line end with the next. -/
theorem brokenLinesOf_cons {c : Char} {cs : List Char} (h : c = '\r' → cs.head? ≠ some '\n') :
    brokenLinesOf (c :: cs) =
      if isLineEnd c then [] :: brokenLinesOf cs else consWord c (brokenLinesOf cs) := by
  refine brokenLinesOf.eq_3 c cs fun rest hc hcs => ?_
  exact h hc (hcs ▸ rfl)

theorem brokenLinesOf_ne_nil {cs : List Char} (h : cs ≠ []) : brokenLinesOf cs ≠ [] := by
  fun_cases brokenLinesOf cs with
  | case1 => exact absurd rfl h
  | case2 => exact List.cons_ne_nil _ _
  | case3 => exact List.cons_ne_nil _ _
  | case4 c cs =>
      cases brokenLinesOf cs with
      | nil => exact List.cons_ne_nil _ _
      | cons w ws => exact List.cons_ne_nil _ _

theorem brokenLinesOf_append (cs rest : List Char) :
    brokenLinesOf (cs ++ '\n' :: rest) = brokenLinesOf (cs ++ ['\n']) ++ brokenLinesOf rest := by
  fun_induction brokenLinesOf cs with
  | case1 => rfl
  | case2 cs ih => simp [brokenLinesOf, ih]
  | case3 c cs hr hc ih =>
      -- A carriage return at the end forms one line end with the newline.
      by_cases hlast : c = '\r' ∧ cs = []
      · obtain ⟨rfl, rfl⟩ := hlast
        rfl
      · have hhead (l : List Char) : c = '\r' → (cs ++ '\n' :: l).head? ≠ some '\n' := by
          intro heq hhead
          cases cs with
          | nil => exact hlast ⟨heq, rfl⟩
          | cons d cs =>
              obtain rfl : d = '\n' := Option.some.inj hhead
              exact hr cs heq rfl
        rw [List.cons_append, List.cons_append, brokenLinesOf_cons (hhead rest),
          brokenLinesOf_cons (hhead []), if_pos hc, if_pos hc, ih]
        rfl
  | case4 c cs hr hc ih =>
      have hhead (l : List Char) : c = '\r' → (cs ++ '\n' :: l).head? ≠ some '\n' := by
        rintro rfl
        exact absurd rfl hc
      rw [List.cons_append, List.cons_append, brokenLinesOf_cons (hhead rest),
        brokenLinesOf_cons (hhead []), if_neg hc, if_neg hc, ih]
      exact consWord_append c (brokenLinesOf_ne_nil (by simp)) _

theorem brokenLinesOf_line {line : List Char} (hne : line ≠ [])
    (h : ∀ c ∈ line, isLineEnd c = false) : brokenLinesOf line = [line] := by
  induction line with
  | nil => exact absurd rfl hne
  | cons c cs ih =>
      have hc : isLineEnd c = false := h c List.mem_cons_self
      have hcr : c = '\r' → cs.head? ≠ some '\n' := by
        rintro rfl
        exact absurd hc (by decide)
      rw [brokenLinesOf_cons hcr, if_neg (Bool.not_eq_true _ ▸ hc)]
      cases cs with
      | nil => rfl
      | cons d cs =>
          rw [ih (List.cons_ne_nil d cs) fun x hx => h x (List.mem_cons_of_mem c hx)]
          rfl

theorem isBlank_of_isLineEnd {c : Char} (h : isLineEnd c = true) : isBlank c = true := by
  simp only [isLineEnd, isBlank, Bool.or_eq_true, Bool.and_eq_true, decide_eq_true_eq,
    beq_iff_eq] at h ⊢
  omega

/-- Blanks after a text are dropped, and nothing else of one that begins and ends otherwise. -/
theorem stripChars_append {cs blanks : List Char} (hne : cs ≠ [])
    (hhead : ∀ c ∈ cs.head?, isBlank c = false) (hlast : ∀ c ∈ cs.getLast?, isBlank c = false)
    (hblanks : ∀ c ∈ blanks, isBlank c = true) : stripChars (cs ++ blanks) = cs := by
  have hkept {l : List Char} (h : ∀ c ∈ l.head?, isBlank c = false) : l.dropWhile isBlank = l := by
    cases l with
    | nil => rfl
    | cons c l => exact List.dropWhile_cons_of_neg (by simp [h c rfl])
  have hstart : ∀ c ∈ (cs ++ blanks).head?, isBlank c = false := by
    rwa [List.head?_append, Option.or_of_isSome (List.isSome_head?.mpr hne)]
  rw [stripChars, hkept hstart, dropEndWhile, List.reverse_append,
    List.dropWhile_append_of_pos fun c hc => hblanks c (List.mem_reverse.mp hc),
    hkept (by rwa [List.head?_reverse]), List.reverse_reverse]

theorem isBlank_head_stripChars {cs : List Char} {c : Char} (h : c ∈ (stripChars cs).head?) :
    isBlank c = false := by
  obtain ⟨dropped, hdropped⟩ : stripChars cs <+: cs.dropWhile isBlank := by
    rw [stripChars, dropEndWhile, ← List.reverse_suffix, List.reverse_reverse]
    exact List.dropWhile_suffix _
  have hnot := List.head?_dropWhile_not isBlank cs
  rw [← hdropped, List.head?_append, Option.mem_def.mp h] at hnot
  exact hnot

theorem isBlank_getLast_stripChars {cs : List Char} {c : Char}
    (h : c ∈ (stripChars cs).getLast?) : isBlank c = false := by
  rw [stripChars, dropEndWhile, List.getLast?_reverse] at h
  have hnot := List.head?_dropWhile_not isBlank (cs.dropWhile isBlank).reverse
  rw [Option.mem_def.mp h] at hnot
  exact hnot

theorem mem_of_mem_stripChars {c : Char} {cs : List Char} (h : c ∈ stripChars cs) : c ∈ cs := by
  rw [stripChars, dropEndWhile, List.mem_reverse] at h
  have hrest := (List.dropWhile_sublist isBlank).mem h
  exact (List.dropWhile_sublist isBlank).mem (List.mem_reverse.mp hrest)

theorem stripChars_of_blank {cs : List Char} (h : ∀ c ∈ cs, isBlank c = true) :
    stripChars cs = [] := by
  rw [stripChars, List.dropWhile_eq_nil_iff.mpr h]
  rfl

theorem stripChars_ne_nil {c : Char} {cs : List Char} (hc : c ∈ cs) (h : isBlank c = false) :
    stripChars cs ≠ [] := by
  have hrest : c ∈ cs.dropWhile isBlank := by
    rw [← List.takeWhile_append_dropWhile (p := isBlank) (l := cs), List.mem_append] at hc
    refine hc.resolve_left fun htaken => ?_
    exact Bool.false_ne_true (h.symm.trans (List.mem_takeWhile_imp htaken))
  rw [stripChars, dropEndWhile, Ne, List.reverse_eq_nil_iff, List.dropWhile_eq_nil_iff]
  exact fun hall => Bool.false_ne_true (h.symm.trans (hall c (List.mem_reverse.mpr hrest)))

theorem stripChars_concat {c : Char} (h : isBlank c = true) (cs : List Char) :
    stripChars (cs ++ [c]) = stripChars cs := by
  by_cases hblank : ∀ d ∈ cs, isBlank d = true
  · have hall : ∀ d ∈ cs ++ [c], isBlank d = true := by
      simpa [or_imp, forall_and, h] using hblank
    rw [stripChars_of_blank hall, stripChars_of_blank hblank]
  · have hne : cs.dropWhile isBlank ≠ [] := mt List.dropWhile_eq_nil_iff.mp hblank
    rw [stripChars, stripChars, List.dropWhile_append, if_neg (mt List.isEmpty_iff.mp hne),
      dropEndWhile, dropEndWhile, List.reverse_concat, List.dropWhile_cons_of_pos h]

theorem isLineEnd_of_mem_brokenLinesOf {cs line : List Char} {c : Char}
    (hline : line ∈ brokenLinesOf cs) (hc : c ∈ line) : isLineEnd c = false := by
  fun_induction brokenLinesOf cs generalizing line with
  | case1 => exact absurd hline List.not_mem_nil
  | case2 cs ih =>
      obtain rfl | hline := List.mem_cons.mp hline
      · exact absurd hc List.not_mem_nil
      · exact ih hline hc
  | case3 d cs _ _ ih =>
      obtain rfl | hline := List.mem_cons.mp hline
      · exact absurd hc List.not_mem_nil
      · exact ih hline hc
  | case4 d cs _ hd ih =>
      rw [Bool.not_eq_true] at hd
      cases hls : brokenLinesOf cs with
      | nil =>
          rw [hls, consWord, List.mem_singleton] at hline
          rw [hline, List.mem_singleton] at hc
          exact hc ▸ hd
      | cons w ws =>
          rw [hls] at hline ih
          obtain rfl | hline := List.mem_cons.mp hline
          · obtain rfl | hc := List.mem_cons.mp hc
            · exact hd
            · exact ih List.mem_cons_self hc
          · exact ih (List.mem_cons_of_mem w hline) hc

/-- The lines of a text with one more character at its end: a line end ends the last line, or an
empty line of its own; another character makes the last line longer, or begins a line. -/
inductive Extended (c : Char) : List (List Char) → List (List Char) → Prop where
  | ended {lines : List (List Char)} : isLineEnd c = true → Extended c lines lines
  | empty (lines : List (List Char)) : isLineEnd c = true → Extended c lines (lines ++ [[]])
  | longer (init : List (List Char)) (last : List Char) : isLineEnd c = false →
    Extended c (init ++ [last]) (init ++ [last ++ [c]])
  | begun (lines : List (List Char)) : isLineEnd c = false → Extended c lines (lines ++ [[c]])

theorem Extended.cons {c : Char} {lines lines' : List (List Char)} (h : Extended c lines lines')
    (line : List Char) : Extended c (line :: lines) (line :: lines') := by
  cases h with
  | ended hc => exact .ended hc
  | empty lines hc => exact .empty (line :: lines) hc
  | longer init last hc => exact .longer (line :: init) last hc
  | begun lines hc => exact .begun (line :: lines) hc

theorem Extended.consWord {c : Char} {lines lines' : List (List Char)} (h : Extended c lines lines')
    (d : Char) : Extended c (Text.consWord d lines) (Text.consWord d lines') := by
  cases h with
  | ended hc => exact .ended hc
  | empty lines hc =>
      cases lines with
      | nil => exact .ended hc
      | cons w ws => exact .empty ((d :: w) :: ws) hc
  | longer init last hc =>
      cases init with
      | nil => exact .longer [] (d :: last) hc
      | cons w ws => exact .longer ((d :: w) :: ws) last hc
  | begun lines hc =>
      cases lines with
      | nil => exact .longer [] [d] hc
      | cons w ws => exact .begun ((d :: w) :: ws) hc

theorem brokenLinesOf_concat (cs : List Char) (c : Char) :
    Extended c (brokenLinesOf cs) (brokenLinesOf (cs ++ [c])) := by
  fun_induction brokenLinesOf cs with
  | case1 =>
      rw [List.nil_append, brokenLinesOf_cons fun _ => by simp]
      by_cases hc : isLineEnd c = true
      · rw [if_pos hc]
        exact .empty [] hc
      · rw [if_neg hc]
        exact .begun [] (Bool.not_eq_true _ ▸ hc)
  | case2 cs ih =>
      rw [List.cons_append, List.cons_append, brokenLinesOf]
      exact ih.cons []
  | case3 d cs hr hd ih =>
      by_cases hend : d = '\r' ∧ cs = [] ∧ c = '\n'
      · -- The two characters are one line end.
        obtain ⟨rfl, rfl, rfl⟩ := hend
        exact .ended rfl
      have hhead : d = '\r' → (cs ++ [c]).head? ≠ some '\n' := by
        intro hd hhead
        cases cs with
        | nil => exact hend ⟨hd, rfl, Option.some.inj hhead⟩
        | cons e cs => exact hr cs hd (Option.some.inj hhead ▸ rfl)
      rw [List.cons_append, brokenLinesOf_cons hhead, if_pos hd]
      exact ih.cons []
  | case4 d cs hr hd ih =>
      have hhead : d = '\r' → (cs ++ [c]).head? ≠ some '\n' := by
        rintro rfl
        exact absurd rfl hd
      rw [List.cons_append, brokenLinesOf_cons hhead, if_neg hd]
      exact ih.consWord d

/-- The last line of a text ends with the last character, unless that is a line end. -/
theorem getLast_brokenLinesOf {cs line : List Char} {c : Char} {before : List (List Char)}
    (hlast : c ∈ cs.getLast?) (hc : isLineEnd c = false) (h : brokenLinesOf cs = before ++ [line]) :
    c ∈ line := by
  obtain ⟨cs, rfl⟩ := List.getLast?_eq_some_iff.mp hlast
  have hextended := brokenLinesOf_concat cs c
  rw [h] at hextended
  generalize hlines : before ++ [line] = lines at hextended
  generalize brokenLinesOf cs = start at hextended
  cases hextended with
  | ended hend => exact absurd (hc.symm.trans hend) Bool.false_ne_true
  | empty _ hend => exact absurd (hc.symm.trans hend) Bool.false_ne_true
  | longer init last _ =>
      obtain ⟨-, heq⟩ := List.append_inj' hlines rfl
      obtain rfl := List.singleton_inj.mp heq
      exact List.mem_append_right last List.mem_cons_self
  | begun _ _ =>
      obtain ⟨-, heq⟩ := List.append_inj' hlines rfl
      obtain rfl := List.singleton_inj.mp heq
      exact List.mem_cons_self

theorem digitValue?_of_isDigit {c : Char} (h : c.isDigit = true) :
    digitValue? c = some (c.toNat - 48) := by
  obtain ⟨hlow, hhigh⟩ : 48 ≤ c.toNat ∧ c.toNat ≤ 57 := Char.isDigit_iff_toNat.mp h
  have hascii : c.toNat < 128 := by omega
  simp [digitValue?, hascii, hlow, hhigh]

theorem isDigit_of_mem_toDigits {n : Nat} {c : Char} (h : c ∈ Nat.toDigits 10 n) :
    isDigit c = true := by
  rw [isDigit, digitValue?_of_isDigit (Nat.isDigit_of_mem_toDigits (by decide) (by decide) h)]
  rfl

theorem valueOfDigits_toDigits (n : Nat) :
    valueOfDigits ((Nat.toDigits 10 n).filterMap digitValue?) = n := by
  have hvalue (ds : List Char) (h : ∀ c ∈ ds, c.isDigit = true) (init : Nat) :
      (ds.filterMap digitValue?).foldl (fun n d => 10 * n + d) init =
        Nat.ofDigitChars 10 ds init := by
    induction ds generalizing init with
    | nil => rfl
    | cons c ds ih =>
        have hc := digitValue?_of_isDigit (h c List.mem_cons_self)
        rw [List.filterMap_cons_some hc, List.foldl_cons, Nat.ofDigitChars_cons]
        exact ih (fun d hd => h d (List.mem_cons_of_mem c hd)) _
  rw [valueOfDigits, hvalue _ fun c hc => Nat.isDigit_of_mem_toDigits (by decide) (by decide) hc]
  exact Nat.ofDigitChars_toDigits (by decide) (by decide)

/-! ### Texts of one line -/

def Unbroken (s : String) : Prop := ∀ c ∈ s.toList, isLineEnd c = false

structure IsLine (s : String) : Prop where
  ne : s ≠ ""
  unbroken : Unbroken s

instance (s : String) : Decidable (Unbroken s) := decidableAll _ s.toList

instance (s : String) : Decidable (IsLine s) :=
  decidable_of_iff (s ≠ "" ∧ Unbroken s) ⟨fun ⟨hne, h⟩ => ⟨hne, h⟩, fun ⟨hne, h⟩ => ⟨hne, h⟩⟩

theorem unbroken_append {s t : String} : Unbroken (s ++ t) ↔ Unbroken s ∧ Unbroken t := by
  simp only [Unbroken, String.toList_append, List.forall_mem_append]

theorem unbroken_ofList {cs : List Char} :
    Unbroken (String.ofList cs) ↔ ∀ c ∈ cs, isLineEnd c = false := by
  rw [Unbroken, String.toList_ofList]

theorem isLineEnd_of_mem_toDigits {n : Nat} {c : Char} (h : c ∈ Nat.toDigits 10 n) :
    isLineEnd c = false := by
  obtain ⟨hlow, hhigh⟩ : 48 ≤ c.toNat ∧ c.toNat ≤ 57 :=
    Char.isDigit_iff_toNat.mp (Nat.isDigit_of_mem_toDigits (by decide) (by decide) h)
  simp only [isLineEnd, Bool.or_eq_false_iff, Bool.and_eq_false_iff, decide_eq_false_iff_not,
    beq_eq_false_iff_ne]
  omega

theorem unbroken_decimal (n : Int) : Unbroken (decimal n) := by
  cases n with
  | ofNat k => exact unbroken_ofList.mpr fun _ => isLineEnd_of_mem_toDigits
  | negSucc k =>
      exact unbroken_ofList.mpr (List.forall_mem_cons.mpr
        ⟨by decide, fun _ => isLineEnd_of_mem_toDigits⟩)

/-! ### Line ends of text files -/

/-- No carriage return is left when the line ends of a text file are read. -/
theorem not_mem_foldNewlinesOf (cs : List Char) : '\r' ∉ foldNewlinesOf cs := by
  induction cs using foldNewlinesOf.induct with
  | case1 => simp [foldNewlinesOf]
  | case2 cs ih => simpa [foldNewlinesOf] using ih
  | case3 c cs hne ih =>
      rw [foldNewlinesOf.eq_3 c cs hne, List.mem_cons, not_or]
      refine ⟨?_, ih⟩
      split
      · decide
      · exact fun h => absurd h.symm ‹_›

/-- A text file is read as it was written exactly when no carriage return was written. -/
theorem foldNewlines_eq_self_iff (s : String) : foldNewlines s = s ↔ '\r' ∉ s.toList := by
  have hread : foldNewlines s = s ↔ foldNewlinesOf s.toList = s.toList := by
    rw [foldNewlines, ← String.toList_inj, String.toList_ofList]
  rw [hread]
  refine ⟨fun h => h ▸ not_mem_foldNewlinesOf _, ?_⟩
  induction s.toList using foldNewlinesOf.induct with
  | case1 => exact fun _ => rfl
  | case2 cs ih => exact fun h => absurd List.mem_cons_self h
  | case3 c cs hne ih =>
      intro h
      obtain ⟨hc, hcs⟩ := not_or.mp (mt List.mem_cons.mpr h)
      rw [foldNewlinesOf.eq_3 c cs hne, if_neg fun hr => hc hr.symm, ih hcs]

end Rerun.Text
