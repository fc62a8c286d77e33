import Mathlib.Data.List.Induction
import Rerun.Proofs.Remote.Displaced

/-!
What any text comes to when it is reduced to one line, said without a word on how it is searched
(`Reduces`). The places that a text mentions are taken from left to right without overlap, and the
last one in the program counts; the last line that names an error gives its type and its message.
The search comes to just that (`reduce_eq_iff`), and what is found is one line.
-/

namespace Rerun

namespace Traceback

/-! ### Places -/

structure Mention where
  file : List Char
  digits : List Char

namespace Mention

def line (m : Mention) : Nat := Text.valueOfDigits (m.digits.filterMap Text.digitValue?)

def InProgram (m : Mention) : Prop := ∃ f ∈ programFiles, f.toList <:+ m.file

instance (m : Mention) : Decidable m.InProgram :=
  inferInstanceAs (Decidable (∃ f ∈ programFiles, f.toList <:+ m.file))

/-- A text begins with a mention, as far as its digits go, and goes on with `rest`. -/
structure Begins (m : Mention) (cs rest : List Char) : Prop where
  eq : cs = "File \"".toList ++ (m.file ++ ("\", line ".toList ++ (m.digits ++ rest)))
  file_ne : m.file ≠ []
  file : '"' ∉ m.file
  digits_ne : m.digits ≠ []
  digits : ∀ d ∈ m.digits, Text.isDigit d = true
  stop : ∀ d ∈ rest.head?, Text.isDigit d = false

end Mention

/-- The places that a text mentions, from left to right and without overlap. -/
inductive Mentions : List Char → List Mention → Prop where
  | nil : Mentions [] []
  | place {m : Mention} {cs rest : List Char} {ms : List Mention} :
    m.Begins cs rest → Mentions rest ms → Mentions cs (m :: ms)
  | skip {c : Char} {cs : List Char} {ms : List Mention} :
    (∀ (m : Mention) rest, ¬ m.Begins (c :: cs) rest) → Mentions cs ms → Mentions (c :: cs) ms

def Marker.mention (m : Marker) : Mention := ⟨m.file, m.digits⟩

theorem Marker.inProgram_iff (m : Marker) : m.inProgram = true ↔ m.mention.InProgram := by
  rw [Marker.inProgram, List.any_eq_true]
  simp only [List.isSuffixOf_iff_suffix]
  rfl

theorem Mention.Begins.length {m : Mention} {cs rest : List Char} (h : m.Begins cs rest) :
    cs.length = 6 + m.file.length + 8 + m.digits.length + rest.length := by
  have hword : "File \"".toList.length = 6 := rfl
  have hline : "\", line ".toList.length = 8 := rfl
  rw [h.eq, List.length_append, List.length_append, List.length_append, List.length_append, hword,
    hline]
  omega

theorem begins_of_marker? {cs : List Char} {m : Marker} (h : marker? cs = some m) :
    ∃ rest, m.mention.Begins cs rest ∧ m.size = 6 + m.file.length + 8 + m.digits.length := by
  rw [marker?] at h
  split at h
  · cases h
  rename_i after hfile
  dsimp only at h
  split at h
  · cases h
  rename_i numbered hline
  split at h
  · cases h
  rename_i hne
  obtain rfl := Option.some.inj h
  rw [Bool.or_eq_true, not_or, List.isEmpty_iff, List.isEmpty_iff] at hne
  have hcs := List.isPrefixOf?_eq_some_iff_append_eq.mp hfile
  have hafter := List.takeWhile_append_dropWhile (p := (· ≠ '"')) (l := after)
  rw [← List.isPrefixOf?_eq_some_iff_append_eq.mp hline] at hafter
  have hnumbered := List.takeWhile_append_dropWhile (p := Text.isDigit) (l := numbered)
  refine ⟨numbered.dropWhile Text.isDigit, ⟨?_, hne.1, ?_, hne.2, ?_, ?_⟩, rfl⟩
  · dsimp only [Marker.mention]
    rw [hnumbered, hafter, hcs]
  · intro hquote
    exact absurd (List.mem_takeWhile_imp hquote) (by decide)
  · exact fun d hd => List.mem_takeWhile_imp hd
  · intro d hd
    have hnot := List.head?_dropWhile_not Text.isDigit numbered
    rw [Option.mem_def.mp hd] at hnot
    exact hnot

theorem marker?_of_begins {m : Mention} {cs rest : List Char} (h : m.Begins cs rest) :
    marker? cs = some ⟨m.file, m.digits, 6 + m.file.length + 8 + m.digits.length⟩ := by
  have hkept : ∀ c ∈ m.file, decide (c ≠ '"') = true := fun c hc =>
    decide_eq_true fun heq => h.file (heq ▸ hc)
  have hrest : rest.takeWhile Text.isDigit = [] := by
    cases rest with
    | nil => rfl
    | cons d rest => exact List.takeWhile_cons_of_neg (by simp [h.stop d rfl])
  let line := "\", line ".toList ++ (m.digits ++ rest)
  have hquote : line.takeWhile (· ≠ '"') = [] := rfl
  have hstay : line.dropWhile (· ≠ '"') = line := rfl
  have hne : ¬ (m.file.isEmpty || m.digits.isEmpty) = true := by
    rw [Bool.or_eq_true, List.isEmpty_iff, List.isEmpty_iff]
    exact not_or.mpr ⟨h.file_ne, h.digits_ne⟩
  rw [h.eq, marker?, List.isPrefixOf?_eq_some_iff_append_eq.mpr rfl]
  dsimp only
  rw [List.takeWhile_append_of_pos hkept, List.dropWhile_append_of_pos hkept, hquote, hstay,
    List.isPrefixOf?_eq_some_iff_append_eq.mpr rfl]
  dsimp only
  rw [List.takeWhile_append_of_pos h.digits, hrest, List.append_nil, List.append_nil, if_neg hne]

theorem markersFrom_of_begins {m : Mention} {cs rest : List Char} (h : m.Begins cs rest) :
    markersFrom 0 cs =
      ⟨m.file, m.digits, 6 + m.file.length + 8 + m.digits.length⟩ :: markersFrom 0 rest := by
  let taken := "File \"".toList ++ (m.file ++ ("\", line ".toList ++ m.digits))
  have hcs : cs = taken ++ rest := by
    rw [h.eq]
    simp only [taken, List.append_assoc]
  have hsize : 6 + m.file.length + 8 + m.digits.length = taken.length := by
    have hlength := h.length
    rw [hcs, List.length_append] at hlength
    omega
  have hmarker := marker?_of_begins h
  rw [hcs] at hmarker ⊢
  exact markersFrom_of_marker? hmarker (List.cons_ne_nil 'F' _) hsize

theorem Mentions.markers_eq {cs : List Char} {ms : List Mention} (h : Mentions cs ms) :
    (markers cs).map Marker.mention = ms := by
  rw [markers]
  induction h with
  | nil => rfl
  | place hbegins _ ih =>
      rw [markersFrom_of_begins hbegins, List.map_cons, ih]
      rfl
  | @skip c cs ms hnone _ ih =>
      have hmarker : marker? (c :: cs) = none := by
        cases hm : marker? (c :: cs) with
        | none => rfl
        | some m =>
            obtain ⟨rest, hbegins, -⟩ := begins_of_marker? hm
            exact absurd hbegins (hnone _ rest)
      rw [markersFrom, hmarker]
      exact ih

theorem mentions_exists (cs : List Char) : ∃ ms, Mentions cs ms := by
  -- Behind a mention it goes on with what its digits leave, and otherwise with the next character.
  match cs with
  | [] => exact ⟨[], .nil⟩
  | c :: cs =>
      by_cases h : ∃ (m : Mention) (rest : List Char), m.Begins (c :: cs) rest
      · obtain ⟨m, rest, hbegins⟩ := h
        have hshorter : rest.length < (c :: cs).length := by
          rw [hbegins.length]
          omega
        obtain ⟨ms, hms⟩ := mentions_exists rest
        exact ⟨m :: ms, .place hbegins hms⟩
      · obtain ⟨ms, hms⟩ := mentions_exists cs
        exact ⟨ms, .skip (fun m rest hbegins => h ⟨m, rest, hbegins⟩) hms⟩
termination_by cs.length
decreasing_by
  · exact hshorter
  · exact Nat.lt_succ_self cs.length

/-! ### Errors -/

/-- A dotted name of an error: word characters and dots, of which the first is a letter or an
underscore and the last are one of the endings, with something before it. -/
structure IsErrorName (type : List Char) : Prop where
  chars : ∀ c ∈ type, Text.isWordChar c = true ∨ c = '.'
  start : ∃ c ∈ type.head?, c.isAlpha = true ∨ c = '_'
  ending : ∃ stem, stem ≠ [] ∧ ∃ ending ∈ errorEndings, type = stem ++ ending.toList

def IsLastPart (name type : List Char) : Prop :=
  '.' ∉ name ∧ (type = name ∨ ∃ front, type = front ++ '.' :: name)

/-- A line names an error: the type, a colon, perhaps a space, and the message. -/
inductive NamesError (line : List Char) : String → String → Prop where
  | intro {type name after message : List Char} :
    line = type ++ ':' :: after → ':' ∉ type → IsErrorName type → IsLastPart name type →
    (after = ' ' :: message ∨ after = message ∧ message.head? ≠ some ' ') →
    NamesError line (String.ofList name) (String.ofList message)

theorem isNameStart_iff {c : Char} : isNameStart c = true ↔ c.isAlpha = true ∨ c = '_' := by
  have hascii (h : c.isAlpha = true) : c.toNat < 128 := by
    obtain hupper | hlower := Bool.or_eq_true_iff.mp h
    · have hle : c.toNat ≤ 'Z'.toNat := (of_decide_eq_true hupper).2
      exact Nat.lt_of_le_of_lt hle (by decide)
    · have hle : c.toNat ≤ 'z'.toNat := of_decide_eq_true (Bool.and_eq_true_iff.mp hlower).2
      exact Nat.lt_of_le_of_lt hle (by decide)
  simp only [isNameStart, Bool.and_eq_true, Bool.or_eq_true, decide_eq_true_eq,
    and_iff_right_iff_imp]
  rintro (h | rfl)
  · exact hascii h
  · decide

theorem isWordChar_of_isNameStart {c : Char} (h : isNameStart c = true) :
    Text.isWordChar c = true := by
  have hstart := isNameStart_iff.mp h
  rw [isNameStart, Bool.and_eq_true, decide_eq_true_eq] at h
  rw [Text.isWordChar, if_pos h.1]
  obtain halpha | hunder := hstart
  · simp [Char.isAlphanum, halpha]
  · simp [hunder]

theorem isErrorType_iff {type : List Char} : isErrorType type = true ↔ IsErrorName type := by
  cases type with
  | nil =>
      refine iff_of_false Bool.false_ne_true fun h => ?_
      obtain ⟨c, hc, -⟩ := h.start
      cases hc
  | cons c rest =>
      simp only [isErrorType, Bool.and_eq_true, List.all_eq_true, List.any_eq_true,
        Bool.or_eq_true, decide_eq_true_eq, List.isSuffixOf_iff_suffix]
      constructor
      · rintro ⟨⟨hc, hrest⟩, e, he, stem, hstem⟩
        refine ⟨List.forall_mem_cons.mpr ⟨.inl (isWordChar_of_isNameStart hc), hrest⟩,
          ⟨c, rfl, isNameStart_iff.mp hc⟩, c :: stem, List.cons_ne_nil c stem, e, he, ?_⟩
        rw [← hstem]
        rfl
      · rintro ⟨hchars, ⟨d, hd, halpha⟩, stem, hne, e, he, htype⟩
        obtain rfl : c = d := Option.some.inj hd
        refine ⟨⟨isNameStart_iff.mpr halpha, (List.forall_mem_cons.mp hchars).2⟩, e, he, ?_⟩
        cases stem with
        | nil => exact absurd rfl hne
        | cons d stem => exact ⟨stem, (List.cons.inj htype).2.symm⟩

theorem lastComponent_eq {name type : List Char} (h : IsLastPart name type) :
    lastComponent type = name := by
  obtain ⟨hdot, rfl | ⟨front, rfl⟩⟩ := h
  · rw [lastComponent, Text.splitAt_of_not_mem hdot]
    rfl
  · rw [lastComponent, Text.splitAt_append_cons, Text.splitAt_of_not_mem hdot,
      List.getLastD_concat]

theorem isLastPart_lastComponent (type : List Char) : IsLastPart (lastComponent type) type := by
  by_cases h : '.' ∈ type
  · obtain ⟨name, front, hreverse, hdot⟩ := List.eq_append_cons_of_mem (List.mem_reverse.mpr h)
    have htype : type = front.reverse ++ '.' :: name.reverse := by
      rw [← List.reverse_reverse type, hreverse]
      simp
    have hlast : IsLastPart name.reverse type :=
      ⟨mt List.mem_reverse.mp hdot, .inr ⟨front.reverse, htype⟩⟩
    rwa [lastComponent_eq hlast]
  · rw [lastComponent, Text.splitAt_of_not_mem h]
    exact ⟨h, .inl rfl⟩

theorem finalLine?_eq_some_iff {line : List Char} {name message : String} :
    finalLine? line = some (name, message) ↔ NamesError line name message := by
  constructor
  · intro h
    have hline := List.takeWhile_append_dropWhile (p := (· ≠ ':')) (l := line)
    have hcolon := List.head?_dropWhile_not (· ≠ ':') line
    have htype : ':' ∉ line.takeWhile (· ≠ ':') := fun hc =>
      absurd (List.mem_takeWhile_imp hc) (by decide)
    rw [finalLine?] at h
    dsimp only at h
    split at h
    · cases h
    rename_i c after hafter
    rw [hafter] at hline hcolon
    obtain rfl : c = ':' := by simpa using hcolon
    split at h
    · rename_i herror
      obtain ⟨rfl, rfl⟩ := Prod.mk.inj (Option.some.inj h)
      refine .intro hline.symm htype (isErrorType_iff.mp herror) (isLastPart_lastComponent _) ?_
      split
      · exact .inl rfl
      · rename_i hspace
        refine .inr ⟨rfl, fun hhead => ?_⟩
        obtain ⟨more, hmore⟩ := List.head?_eq_some_iff.mp hhead
        exact hspace more hmore
    · cases h
  · rintro ⟨hline, hcolon, herror, hname, hmessage⟩
    rename_i type name after message
    have hkept : ∀ c ∈ type, decide (c ≠ ':') = true := fun c hc =>
      decide_eq_true fun heq => hcolon (heq ▸ hc)
    have hstay : (':' :: after).dropWhile (· ≠ ':') = ':' :: after := rfl
    have hstop : (':' :: after).takeWhile (· ≠ ':') = [] := rfl
    rw [finalLine?, hline]
    dsimp only
    rw [List.takeWhile_append_of_pos hkept, List.dropWhile_append_of_pos hkept, hstay, hstop,
      List.append_nil]
    dsimp only
    rw [if_pos (isErrorType_iff.mpr herror), lastComponent_eq hname]
    obtain rfl | ⟨rfl, hhead⟩ := hmessage
    · rfl
    · split
      · exact absurd rfl hhead
      · rfl

/-- The last of some lines that names an error names this one. -/
def LastNames (lines : List (List Char)) (name message : String) : Prop :=
  ∃ before line after, lines = before ++ line :: after ∧
    NamesError (Text.stripChars line) name message ∧
    ∀ later ∈ after, ∀ name message, ¬ NamesError (Text.stripChars later) name message

def NoneNames (lines : List (List Char)) : Prop :=
  ∀ line ∈ lines, ∀ name message, ¬ NamesError (Text.stripChars line) name message

theorem finalLine?_eq_none_iff {line : List Char} :
    finalLine? line = none ↔ ∀ name message, ¬ NamesError line name message := by
  rw [Option.eq_none_iff_forall_ne_some, Prod.forall]
  simp only [Ne, finalLine?_eq_some_iff]

theorem lastError_eq_some_iff {lines : List (List Char)} {name message : String} :
    lastError lines = some (name, message) ↔ LastNames lines name message := by
  rw [lastError, ← List.map_reverse, List.findSome?_map, List.findSome?_eq_some_iff]
  simp only [Function.comp, finalLine?_eq_some_iff, finalLine?_eq_none_iff]
  constructor
  · rintro ⟨after, line, before, hlines, hnames, hafter⟩
    refine ⟨before.reverse, line, after.reverse, ?_, hnames, fun later hlater =>
      hafter later (List.mem_reverse.mp hlater)⟩
    rw [← List.reverse_reverse lines, hlines]
    simp
  · rintro ⟨before, line, after, rfl, hnames, hafter⟩
    refine ⟨after.reverse, line, before.reverse, by simp, hnames, fun later hlater =>
      hafter later (List.mem_reverse.mp hlater)⟩

theorem lastError_eq_none_iff {lines : List (List Char)} :
    lastError lines = none ↔ NoneNames lines := by
  rw [lastError, ← List.map_reverse, List.findSome?_map, List.findSome?_eq_none_iff]
  simp only [Function.comp, finalLine?_eq_none_iff, List.mem_reverse]
  rfl

theorem lastError_append (ls ls' : List (List Char)) :
    lastError (ls ++ ls') = (lastError ls').or (lastError ls) := by
  simp [lastError, List.findSome?_append]

theorem lastError_stripChars (cs : List Char) :
    lastError (Text.brokenLinesOf (Text.stripChars cs)) = lastError (Text.brokenLinesOf cs) := by
  have hend (cs : List Char) : lastError (Text.brokenLinesOf (Text.dropEndWhile Text.isBlank cs)) =
      lastError (Text.brokenLinesOf cs) := by
    -- By the last character: a blank there leaves the last line blank, or it is stripped from it.
    induction cs using List.reverseRecOn with
    | nil => rfl
    | append_singleton cs c ih =>
        rw [Text.dropEndWhile, List.reverse_concat]
        by_cases hc : Text.isBlank c = true
        · rw [List.dropWhile_cons_of_pos hc, ← Text.dropEndWhile, ih]
          have hextended := Text.brokenLinesOf_concat cs c
          generalize Text.brokenLinesOf cs = lines at hextended ⊢
          generalize Text.brokenLinesOf (cs ++ [c]) = lines' at hextended ⊢
          cases hextended with
          | ended _ => rfl
          | empty _ => exact (lastError_append lines [[]]).symm
          | longer _ =>
              rw [lastError_append, lastError_append, lastError_cons, lastError_cons,
                Text.stripChars_concat hc]
          | begun _ =>
              have hnone : lastError [[c]] = none := by
                rw [lastError_cons, Text.stripChars_of_blank (List.forall_mem_singleton.mpr hc)]
                rfl
              rw [lastError_append, hnone]
              rfl
        · rw [List.dropWhile_cons_of_neg hc, List.reverse_cons, List.reverse_reverse]
  rw [Text.stripChars, hend, lastError_dropWhile]

/-! ### Lines -/

theorem unbroken_errorHead_iff {type message : String} (htype : Text.Unbroken type) :
    Text.Unbroken (errorHead type message) ↔ Text.Unbroken message := by
  rw [errorHead]
  split
  · rename_i hempty
    exact iff_of_true htype (hempty ▸ by decide)
  · rw [Text.unbroken_append, Text.unbroken_append]
    exact and_iff_right ⟨htype, by decide⟩

/-- An error is told in one line exactly if its message is in one line. -/
theorem unbroken_errorLine_iff {type message : String} (htype : Text.Unbroken type)
    (line : Option Int) (prependLines : Int) :
    Text.Unbroken (errorLine type message line prependLines) ↔ Text.Unbroken message := by
  have hhead : Text.Unbroken (errorHead type message) ↔ Text.Unbroken message :=
    unbroken_errorHead_iff htype
  cases line with
  | none => exact hhead
  | some n =>
      rw [← hhead, errorLine, Text.unbroken_append, Text.unbroken_append, Text.unbroken_append]
      exact and_iff_right ⟨⟨by decide, Text.unbroken_decimal _⟩, by decide⟩

theorem errorLine_ne_empty {type : String} (htype : type ≠ "") (message : String)
    (line : Option Int) (prependLines : Int) : errorLine type message line prependLines ≠ "" := by
  have hhead : errorHead type message ≠ "" := by
    rw [errorHead]
    split
    · exact htype
    · simp
  cases line with
  | none => exact hhead
  | some n => simp [errorLine]

theorem NamesError.unbroken {line : List Char} {name message : String}
    (h : NamesError line name message) (hline : ∀ c ∈ line, Text.isLineEnd c = false) :
    name ≠ "" ∧ Text.Unbroken name ∧ Text.Unbroken message := by
  obtain ⟨hparts, -, herror, hname, hmessage⟩ := h
  rename_i type name after message
  have htype : ∀ c ∈ type, Text.isLineEnd c = false := fun c hc =>
    hline c (hparts ▸ List.mem_append_left _ hc)
  have hafter : ∀ c ∈ after, Text.isLineEnd c = false := fun c hc =>
    hline c (hparts ▸ List.mem_append_right _ (List.mem_cons_of_mem _ hc))
  refine ⟨?_, Text.unbroken_ofList.mpr fun c hc => ?_, Text.unbroken_ofList.mpr fun c hc => ?_⟩
  · -- A type ends with a letter, so that its last part is not empty.
    intro hempty
    obtain rfl := String.ofList_eq_empty_iff.mp hempty
    obtain ⟨stem, hstem, ending, hending, heq⟩ := herror.ending
    have hletter : ∀ e ∈ errorEndings, e.toList ≠ [] ∧ e.toList.getLast? ≠ some '.' := by decide
    obtain ⟨hne, hlast⟩ := hletter ending hending
    obtain ⟨-, rfl | ⟨front, rfl⟩⟩ := hname
    · exact hne (List.append_eq_nil_iff.mp heq.symm).2
    · refine hlast ?_
      have hdot := congrArg List.getLast? heq
      rwa [List.getLast?_concat, List.getLast?_append, Option.or_of_isSome
        (List.getLast?_isSome.mpr hne), eq_comm] at hdot
  · obtain ⟨-, rfl | ⟨front, rfl⟩⟩ := hname
    · exact htype c hc
    · exact htype c (List.mem_append_right _ (List.mem_cons_of_mem _ hc))
  · obtain rfl | ⟨rfl, -⟩ := hmessage
    · exact hafter c (List.mem_cons_of_mem _ hc)
    · exact hafter c hc

/-! ### What a text comes to -/

def lineAmong (ms : List Mention) : Option Nat :=
  ((ms.filter fun m => decide m.InProgram).getLast?).map Mention.line

/-- What a text comes to. -/
inductive Reduces (text : String) (prependLines : Int) : String → Prop where
  | blank : Text.blank text = true → Reduces text prependLines ""
  /-- A line names an error, and the line of the last place in the program goes with it. -/
  | error {ms : List Mention} {name message : String} : Text.blank text = false →
    Mentions text.toList ms → LastNames (Text.brokenLinesOf text.toList) name message →
    Reduces text prependLines
      (errorLine name message ((lineAmong ms).map Int.ofNat) prependLines)
  /-- No line names an error, and the last one stands for it. -/
  | last {before : List (List Char)} {line : List Char} : Text.blank text = false →
    NoneNames (Text.brokenLinesOf text.toList) →
    Text.brokenLinesOf (Text.stripChars text.toList) = before ++ [line] →
    Reduces text prependLines (String.ofList (Text.stripChars line))

theorem lineAmong_map (ms : List Marker) : lineAmong (ms.map Marker.mention) =
    ((ms.filter Marker.inProgram).getLast?).map Marker.line := by
  have hfilter : ((fun m : Mention => decide m.InProgram) ∘ Marker.mention) = Marker.inProgram := by
    funext m
    rw [Function.comp, Bool.eq_iff_iff, decide_eq_true_eq, m.inProgram_iff]
  rw [lineAmong, List.filter_map, hfilter, List.getLast?_map, Option.map_map]
  rfl

theorem programLine_of_mentions {cs : List Char} {ms : List Mention} (h : Mentions cs ms) :
    programLine cs = lineAmong ms := by
  obtain rfl := h.markers_eq
  exact (lineAmong_map _).symm

theorem Reduces.eq {text line : String} {prependLines : Int} (h : Reduces text prependLines line) :
    reduce text prependLines = line := by
  have hsearch : ((Text.brokenLinesOf (Text.stripChars text.toList)).map
      Text.stripChars).reverse.findSome? finalLine? = lastError (Text.brokenLinesOf text.toList) :=
    lastError_stripChars text.toList
  cases h with
  | blank hblank => exact if_pos hblank
  | error hblank hms hnames =>
      rw [reduce, hblank, if_neg Bool.false_ne_true, programLine_of_mentions hms]
      dsimp only
      rw [hsearch, lastError_eq_some_iff.mpr hnames]
  | last hblank hnone hlast =>
      rw [reduce, hblank, if_neg Bool.false_ne_true]
      dsimp only
      rw [hsearch, lastError_eq_none_iff.mpr hnone, hlast, List.map_append, List.map_singleton,
        List.getLastD_concat]

theorem reduces_exists (text : String) (prependLines : Int) :
    ∃ line, Reduces text prependLines line := by
  cases hblank : Text.blank text with
  | true => exact ⟨_, .blank hblank⟩
  | false =>
      obtain ⟨ms, hms⟩ := mentions_exists text.toList
      cases hfound : lastError (Text.brokenLinesOf text.toList) with
      | none =>
          obtain ⟨c, hc, hblank'⟩ := List.all_eq_false.mp hblank
          have hne := Text.brokenLinesOf_ne_nil
            (Text.stripChars_ne_nil hc (Bool.not_eq_true _ ▸ hblank'))
          have hsplit := (List.dropLast_concat_getLast hne).symm
          exact ⟨_, .last hblank (lastError_eq_none_iff.mp hfound) hsplit⟩
      | some named => exact ⟨_, .error hblank hms (lastError_eq_some_iff.mp hfound)⟩

/-- A text comes to what is said of it, and to nothing else. -/
theorem reduce_eq_iff {text line : String} {prependLines : Int} :
    reduce text prependLines = line ↔ Reduces text prependLines line := by
  refine ⟨?_, Reduces.eq⟩
  rintro rfl
  obtain ⟨line, hline⟩ := reduces_exists text prependLines
  exact hline.eq ▸ hline

/-- What a text comes to is empty if the text is blank, and else one line. -/
theorem Reduces.isLine {text line : String} {prependLines : Int}
    (h : Reduces text prependLines line) :
    if Text.blank text = true then line = "" else Text.IsLine line := by
  cases h with
  | blank hblank => exact if_pos hblank ▸ rfl
  | @error ms name message hblank _ hnames =>
      rw [hblank, if_neg Bool.false_ne_true]
      obtain ⟨before, found, after, hlines, hnames, -⟩ := hnames
      have hfound : found ∈ Text.brokenLinesOf text.toList := by
        rw [hlines]
        exact List.mem_append_right _ List.mem_cons_self
      obtain ⟨hne, hname, hmessage⟩ := hnames.unbroken fun c hc =>
        Text.isLineEnd_of_mem_brokenLinesOf hfound (Text.mem_of_mem_stripChars hc)
      exact ⟨errorLine_ne_empty hne message _ _, (unbroken_errorLine_iff hname _ _).mpr hmessage⟩
  | @last before found hblank _ hlast =>
      rw [hblank, if_neg Bool.false_ne_true]
      have hfound : found ∈ Text.brokenLinesOf (Text.stripChars text.toList) := by
        rw [hlast]
        exact List.mem_append_right _ List.mem_cons_self
      obtain ⟨c, hc, hnot⟩ := List.all_eq_false.mp hblank
      have hne := Text.stripChars_ne_nil hc (Bool.not_eq_true _ ▸ hnot)
      -- The stripped text ends with no blank, and with no line end either, so that its last line
      -- has that character.
      obtain ⟨d, hd⟩ := Option.isSome_iff_exists.mp (List.getLast?_isSome.mpr hne)
      have hblank' : Text.isBlank d = false := Text.isBlank_getLast_stripChars hd
      have hend : Text.isLineEnd d = false := by
        rw [← Bool.not_eq_true]
        exact fun hend => Bool.false_ne_true
          (hblank'.symm.trans (Text.isBlank_of_isLineEnd hend))
      have hmem := Text.getLast_brokenLinesOf hd hend hlast
      refine ⟨?_, Text.unbroken_ofList.mpr fun c hc => ?_⟩
      · exact mt String.ofList_eq_empty_iff.mp (Text.stripChars_ne_nil hmem hblank')
      · exact Text.isLineEnd_of_mem_brokenLinesOf hfound (Text.mem_of_mem_stripChars hc)

/-- Every text is reduced to what is said of it and to nothing else: to nothing if it is blank, and
else to one line. -/
theorem reduceTraceback_reduces (text : String) (prependLines : Int) :
    ∃ line, reduceTraceback text prependLines = .ok line ∧
      (∀ found, Reduces text prependLines found ↔ found = line) ∧
      if Text.blank text = true then line = "" else Text.IsLine line :=
  ⟨reduce text prependLines, rfl, fun _ => reduce_eq_iff.symm.trans eq_comm,
    (reduce_eq_iff.mp rfl).isLine⟩

end Traceback

end Rerun
