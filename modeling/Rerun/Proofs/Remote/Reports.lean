import Mathlib.Data.List.Basic
import Mathlib.Data.List.TakeWhile
import Rerun.Proofs.Sandbox.Exchange
import Rerun.Proofs.Text.Lines

/-!
Reports of exceptions. An interpreter elsewhere prints the calls that an exception went through and
then its type and message; the report is reduced to the one line that an exception has here. The
line of the program is found in every report. The type and the message are found exactly when there
is a message and the type has a name of the usual form.
-/

namespace Rerun.Traceback

/-! ### What is printed -/

/-- A call that an exception went through: the place in a file, the function, and the line that
stands there. -/
structure Frame where
  file : String
  line : Nat
  function : String
  source : String
  deriving DecidableEq

namespace Frame

def place (f : Frame) : String :=
  "File \"" ++ f.file ++ "\", line " ++ String.ofList (Nat.toDigits 10 f.line)

/-- The two lines that are printed for a call. -/
def text (f : Frame) : String :=
  "  " ++ f.place ++ ", in " ++ f.function ++ "\n    " ++ f.source ++ "\n"

def inProgram (f : Frame) : Bool := programFiles.any fun p => p.toList.isSuffixOf f.file.toList

/-- The place can be read where it is printed. -/
structure Legible (f : Frame) : Prop where
  file_ne : f.file ≠ ""
  file : '"' ∉ f.file.toList
  function : '"' ∉ f.function.toList

end Frame

def calls (frames : List Frame) : List Char := frames.flatMap (·.text.toList)

theorem calls_cons (f : Frame) (frames : List Frame) :
    calls (f :: frames) = f.text.toList ++ calls frames := rfl

def opening : List Char := "Traceback (most recent call last):".toList ++ ['\n']

def before (frames : List Frame) : List Char := opening ++ calls frames

/-- An exception: the name of its type with what qualifies it, and its message, which may be
empty. -/
structure Raised where
  qualifiers : List String
  name : String
  message : String

namespace Raised

def type (e : Raised) : String := ".".intercalate (e.qualifiers ++ [e.name])

def line (e : Raised) : List Char := (errorHead e.type e.message).toList

/-- The type has a name and the message is one line without blanks around it. -/
structure Printable (e : Raised) : Prop where
  name_ne : e.name ≠ ""
  parts : ∀ part ∈ e.qualifiers ++ [e.name], ∀ c ∈ part.toList,
    c ≠ '.' ∧ c ≠ ':' ∧ Text.isBlank c = false
  message : ∀ c ∈ e.message.toList, Text.isLineEnd c = false
  stripped : Text.stripChars e.message.toList = e.message.toList

end Raised

def report (frames : List Frame) (e : Raised) : String :=
  String.ofList (before frames ++ (e.line ++ ['\n']))

/-! ### Places -/

/-- No place in a file begins in a text that stands before `rest`. -/
def NamesNone (rest : List Char) : List Char → Prop
  | [] => True
  | c :: cs => marker? (c :: cs ++ rest) = none ∧ NamesNone rest cs

theorem markersFrom_append {rest line : List Char} (h : NamesNone rest line) :
    markersFrom 0 (line ++ rest) = markersFrom 0 rest := by
  induction line with
  | nil => rfl
  | cons c cs ih =>
      rw [List.cons_append, markersFrom, ← List.cons_append, h.1]
      exact ih h.2

theorem markersFrom_skip (skipped rest : List Char) :
    markersFrom skipped.length (skipped ++ rest) = markersFrom 0 rest := by
  induction skipped with
  | nil => rfl
  | cons c cs ih => exact ih

theorem markersFrom_of_marker? {taken rest : List Char} {m : Marker}
    (h : marker? (taken ++ rest) = some m) (hne : taken ≠ []) (hsize : m.size = taken.length) :
    markersFrom 0 (taken ++ rest) = m :: markersFrom 0 rest := by
  cases taken with
  | nil => exact absurd rfl hne
  | cons c cs =>
      rw [List.cons_append, markersFrom, ← List.cons_append, h]
      dsimp only
      rw [hsize, List.length_cons, Nat.add_sub_cancel, markersFrom_skip]

theorem marker?_eq_none {cs : List Char} (h : ¬ "File \"".toList <+: cs) : marker? cs = none := by
  have hnone : "File \"".toList.isPrefixOf? cs = none := by
    rw [Option.eq_none_iff_forall_ne_some]
    intro rest hrest
    exact h ⟨rest, List.isPrefixOf?_eq_some_iff_append_eq.mp hrest⟩
  rw [marker?, hnone]

/-- A line without the word that introduces a place names none, if what comes after it begins with
no character of that word. -/
theorem namesNone_of_absent {y : Char} {line : List Char} (hy : y ∉ "File \"".toList)
    (h : ¬ "File \"".toList <:+: line) (rest : List Char) : NamesNone (y :: rest) line := by
  induction line with
  | nil => trivial
  | cons c cs ih =>
      refine ⟨marker?_eq_none fun hprefix => ?_, ih fun hin => h (hin.trans (List.infix_cons
        List.infix_rfl))⟩
      have hline : c :: cs ++ [y] <+: c :: cs ++ y :: rest :=
        (List.prefix_append_right_inj _).mpr (List.prefix_append [y] rest)
      have hlast : y ∈ c :: cs ++ [y] := List.mem_append_right _ List.mem_cons_self
      rcases Nat.le_total "File \"".toList.length (c :: cs ++ [y]).length with hle | hle
      · have hin := List.prefix_of_prefix_length_le hprefix hline hle
        rcases List.prefix_concat_iff.mp hin with heq | hin
        · exact hy (heq ▸ hlast)
        · exact h hin.isInfix
      · exact hy ((List.prefix_of_prefix_length_le hline hprefix hle).subset hlast)

/-- A line without one of the characters that introduce a place names none, if what comes after it
does not go on with such a character. -/
theorem namesNone_of_not_mem {x y : Char} {line : List Char} (hx : x ∈ "File \"".toList)
    (hy : y ∉ "File \"".toList) (h : x ∉ line) (rest : List Char) : NamesNone (y :: rest) line :=
  namesNone_of_absent hy (fun hin => h (hin.subset hx)) rest

/-- A line without the first of these characters names no place, whatever comes after it. -/
theorem namesNone_of_no_start (line : List Char) (h : 'F' ∉ line) (rest : List Char) :
    NamesNone rest line := by
  induction line with
  | nil => trivial
  | cons c cs ih =>
      refine ⟨marker?_eq_none fun hprefix => ?_, ih fun hc => h (List.mem_cons_of_mem c hc)⟩
      have hc : 'F' = c := (List.cons_prefix_cons.mp hprefix).1
      exact h (hc ▸ List.mem_cons_self)

theorem Frame.place_toList (f : Frame) : f.place.toList =
    "File \"".toList ++ (f.file.toList ++ ("\", line ".toList ++ Nat.toDigits 10 f.line)) := by
  simp only [place, String.toList_append, String.toList_ofList, List.append_assoc]

theorem Frame.text_toList (f : Frame) : f.text.toList = "  ".toList ++ (f.place.toList ++
    (", in ".toList ++ (f.function.toList ++
      ("\n    ".toList ++ (f.source.toList ++ ['\n']))))) := by
  simp only [text, String.toList_append, List.append_assoc]
  rfl

/-- The place of a call, as it is read. -/
def Frame.marker (f : Frame) : Marker where
  file := f.file.toList
  digits := Nat.toDigits 10 f.line
  size := 6 + f.file.toList.length + 8 + (Nat.toDigits 10 f.line).length

theorem marker?_named {file : List Char} (hne : file ≠ []) (hfile : '"' ∉ file) (n : Nat)
    {rest : List Char} (hrest : rest.takeWhile Text.isDigit = []) :
    marker? ("File \"".toList ++ (file ++ ("\", line ".toList ++ (Nat.toDigits 10 n ++ rest)))) =
      some ⟨file, Nat.toDigits 10 n, 6 + file.length + 8 + (Nat.toDigits 10 n).length⟩ := by
  have hkept : ∀ c ∈ file, decide (c ≠ '"') = true := fun c hc =>
    decide_eq_true fun heq => hfile (heq ▸ hc)
  have hdigits : ∀ c ∈ Nat.toDigits 10 n, Text.isDigit c = true := fun c hc =>
    Text.isDigit_of_mem_toDigits hc
  let line := "\", line ".toList ++ (Nat.toDigits 10 n ++ rest)
  have hquote : line.takeWhile (· ≠ '"') = [] := rfl
  have hstay : line.dropWhile (· ≠ '"') = line := rfl
  have hempty : ¬ (file.isEmpty || (Nat.toDigits 10 n).isEmpty) = true := by
    rw [Bool.or_eq_true, List.isEmpty_iff, List.isEmpty_iff]
    exact not_or.mpr ⟨hne, Nat.toDigits_ne_nil⟩
  rw [marker?, List.isPrefixOf?_eq_some_iff_append_eq.mpr rfl]
  dsimp only
  rw [List.takeWhile_append_of_pos hkept, List.dropWhile_append_of_pos hkept, hquote, hstay,
    List.isPrefixOf?_eq_some_iff_append_eq.mpr rfl]
  dsimp only
  rw [List.takeWhile_append_of_pos hdigits, hrest, List.append_nil, List.append_nil, if_neg hempty]

theorem marker?_place {f : Frame} (h : f.Legible) (rest : List Char) :
    marker? (f.place.toList ++ (", in ".toList ++ rest)) = some f.marker := by
  rw [Frame.place_toList, List.append_assoc, List.append_assoc, List.append_assoc]
  exact marker?_named (mt String.toList_eq_nil_iff.mp h.file_ne) h.file f.line rfl

theorem markersFrom_text {f : Frame} (h : f.Legible) {rest : List Char}
    (hsource : NamesNone ('\n' :: rest) f.source.toList) :
    markersFrom 0 (f.text.toList ++ rest) = f.marker :: markersFrom 0 rest := by
  let stands := "\n    ".toList ++ (f.source.toList ++ '\n' :: rest)
  have htext : f.text.toList ++ rest =
      "  ".toList ++ (f.place.toList ++ (", in ".toList ++ (f.function.toList ++ stands))) := by
    simp only [Frame.text_toList, List.append_assoc, List.cons_append, List.nil_append, stands]
  have hsize : f.marker.size = f.place.toList.length := by
    have hword : "File \"".toList.length = 6 := rfl
    have hline : "\", line ".toList.length = 8 := rfl
    simp only [Frame.marker, Frame.place_toList, List.length_append, hword, hline]
    omega
  have hfunction : '"' ∉ ", in ".toList ++ f.function.toList := by
    rw [List.mem_append]
    exact not_or.mpr ⟨by decide, h.function⟩
  have hne : f.place.toList ≠ [] := by
    rw [Frame.place_toList]
    exact List.cons_ne_nil 'F' _
  have hline : markersFrom 0 stands = markersFrom 0 rest := calc markersFrom 0 stands
    _ = markersFrom 0 (f.source.toList ++ '\n' :: rest) :=
        markersFrom_append (namesNone_of_no_start "\n    ".toList (by decide) _)
    _ = markersFrom 0 ('\n' :: rest) := markersFrom_append hsource
    _ = markersFrom 0 rest := markersFrom_append (namesNone_of_no_start ['\n'] (by decide) rest)
  have hstands : stands = '\n' :: ("    ".toList ++ (f.source.toList ++ '\n' :: rest)) := rfl
  rw [htext, markersFrom_append (namesNone_of_no_start "  ".toList (by decide) _),
    markersFrom_of_marker? (marker?_place h _) hne hsize, ← List.append_assoc, hstands,
    markersFrom_append (namesNone_of_not_mem (x := '"') (by decide) (by decide) hfunction _),
    ← hstands, hline]

/-- No line that stands at a call names a place, where other calls and `rest` come after it. -/
def Unmarked (rest : List Char) : List Frame → Prop
  | [] => True
  | f :: frames => NamesNone ('\n' :: (calls frames ++ rest)) f.source.toList ∧ Unmarked rest frames

theorem markersFrom_calls {frames : List Frame} (h : ∀ f ∈ frames, f.Legible) {rest : List Char}
    (hsources : Unmarked rest frames) :
    markersFrom 0 (calls frames ++ rest) = frames.map Frame.marker ++ markersFrom 0 rest := by
  induction frames with
  | nil => rfl
  | cons f frames ih =>
      obtain ⟨hsource, hsources⟩ := hsources
      have htext := markersFrom_text (h f List.mem_cons_self) hsource
      rw [calls_cons, List.append_assoc, htext,
        ih (fun g hg => h g (List.mem_cons_of_mem f hg)) hsources]
      rfl

namespace Raised

variable {e : Raised}

theorem type_toList (e : Raised) : e.type.toList =
    List.intercalate ['.'] ((e.qualifiers ++ [e.name]).map String.toList) := by
  rw [type, String.toList_intercalate]
  rfl

theorem Printable.of_mem_type (h : e.Printable) {c : Char} (hc : c ∈ e.type.toList) :
    c ≠ ':' ∧ Text.isBlank c = false := by
  rw [type_toList] at hc
  obtain hdot | ⟨piece, hpiece, hc⟩ := Text.of_mem_intercalate hc
  · obtain rfl := List.mem_singleton.mp hdot
    decide
  · obtain ⟨part, hpart, rfl⟩ := List.mem_map.mp hpiece
    exact (h.parts part hpart c hc).2

theorem Printable.colon_not_mem (h : e.Printable) : ':' ∉ e.name.toList := fun hc =>
  (h.parts e.name (List.mem_append_right _ List.mem_cons_self) ':' hc).2.1 rfl

theorem line_eq (e : Raised) : e.line = if e.message = "" then e.type.toList
    else e.type.toList ++ ':' :: ' ' :: e.message.toList := by
  rw [line, errorHead]
  split
  · rfl
  · simp

/-- The last line of a report names no place when the message does not. -/
theorem Printable.markersFrom_line (h : e.Printable)
    (hmessage : NamesNone ['\n'] e.message.toList) :
    markersFrom 0 (e.line ++ ['\n']) = [] := by
  have htype : ' ' ∉ e.type.toList := fun hc => absurd (h.of_mem_type hc).2 (by decide)
  rw [line_eq]
  split
  · exact markersFrom_append (namesNone_of_not_mem (x := ' ') (by decide) (by decide) htype [])
  · calc markersFrom 0 (e.type.toList ++ ':' :: ' ' :: e.message.toList ++ ['\n'])
      _ = markersFrom 0 (e.type.toList ++ ':' :: (' ' :: e.message.toList ++ ['\n'])) := by simp
      _ = markersFrom 0 (": ".toList ++ (e.message.toList ++ ['\n'])) :=
          markersFrom_append (namesNone_of_not_mem (x := ' ') (by decide) (by decide) htype _)
      _ = markersFrom 0 (e.message.toList ++ ['\n']) :=
          markersFrom_append (namesNone_of_no_start ": ".toList (by decide) _)
      _ = [] := markersFrom_append hmessage

end Raised

theorem markers_report {frames : List Frame} {e : Raised} (hframes : ∀ f ∈ frames, f.Legible)
    (he : e.Printable) (hsources : Unmarked (e.line ++ ['\n']) frames)
    (hmessage : NamesNone ['\n'] e.message.toList) :
    markers (report frames e).toList = frames.map Frame.marker := by
  rw [report, String.toList_ofList, before, List.append_assoc, markers,
    markersFrom_append (namesNone_of_no_start opening (by decide) _),
    markersFrom_calls hframes hsources,
    he.markersFrom_line hmessage, List.append_nil]

/-! ### The line of the program -/

theorem Frame.line_marker (f : Frame) : f.marker.line = f.line :=
  Text.valueOfDigits_toDigits f.line

theorem programLine_report {frames : List Frame} {e : Raised} (hframes : ∀ f ∈ frames, f.Legible)
    (he : e.Printable) (hsources : Unmarked (e.line ++ ['\n']) frames)
    (hmessage : NamesNone ['\n'] e.message.toList) :
    programLine (report frames e).toList =
      (frames.filter Frame.inProgram).getLast?.map Frame.line := by
  have hfilter : (frames.map Frame.marker).filter Marker.inProgram =
      (frames.filter Frame.inProgram).map Frame.marker := List.filter_map
  have hline : Marker.line ∘ Frame.marker = Frame.line := funext Frame.line_marker
  rw [programLine, markers_report hframes he hsources hmessage, hfilter, List.getLast?_map,
    Option.map_map, hline]

/-! ### The type and the message -/

/-- The last of some lines that names an error, as its type and its message. -/
def lastError (lines : List (List Char)) : Option (String × String) :=
  (lines.map Text.stripChars).reverse.findSome? finalLine?

theorem lastError_concat {line : List Char} (h : Text.stripChars line = line)
    (lines : List (List Char)) :
    lastError (lines ++ [line]) = (finalLine? line).or (lastError lines) := by
  rw [lastError, List.map_append, List.map_singleton, h, List.reverse_append,
    List.reverse_singleton, List.findSome?_append, List.findSome?_singleton, lastError]

theorem lastComponent_type {e : Raised} (h : e.Printable) :
    lastComponent e.type.toList = e.name.toList := by
  rw [lastComponent, Raised.type_toList, Text.splitAt_intercalate (by simp), List.map_append,
    List.map_singleton, List.getLastD_concat]
  intro piece hpiece
  obtain ⟨part, hpart, rfl⟩ := List.mem_map.mp hpiece
  exact fun hdot => (h.parts part hpart _ hdot).1 rfl

/-- A type of the usual form is read with the message, when there is one. -/
theorem finalLine?_line {e : Raised} (h : e.Printable) : finalLine? e.line =
    if e.message ≠ "" ∧ isErrorType e.type.toList =
      true then some (e.name, e.message) else none := by
  have htype : ∀ c ∈ e.type.toList, decide (c ≠ ':') = true := fun c hc =>
    decide_eq_true (h.of_mem_type hc).1
  rw [Raised.line_eq]
  by_cases hmessage : e.message = ""
  · rw [if_pos hmessage, if_neg fun hread => hread.1 hmessage, finalLine?]
    dsimp only
    rw [List.dropWhile_eq_nil_iff.mpr htype]
  · rw [if_neg hmessage, finalLine?]
    dsimp only
    rw [List.takeWhile_append_of_pos htype, List.dropWhile_append_of_pos htype]
    simp [lastComponent_type h, hmessage]

namespace Raised

variable {e : Raised}

theorem Printable.type_ne (h : e.Printable) : e.type.toList ≠ [] := by
  intro hnil
  have hname := lastComponent_type h
  rw [hnil] at hname
  exact h.name_ne (String.toList_eq_nil_iff.mp hname.symm)

theorem Printable.line_ne (h : e.Printable) : e.line ≠ [] := by
  rw [line_eq]
  split
  · exact h.type_ne
  · exact List.append_ne_nil_of_left_ne_nil h.type_ne _

theorem Printable.head_line (h : e.Printable) : ∀ c ∈ e.line.head?, Text.isBlank c = false := by
  have hhead : e.line.head? = e.type.toList.head? := by
    rw [line_eq]
    split
    · rfl
    · rw [List.head?_append, Option.or_of_isSome (List.isSome_head?.mpr h.type_ne)]
  intro c hc
  exact (h.of_mem_type (List.mem_of_mem_head? (hhead ▸ hc))).2

theorem Printable.last_line (h : e.Printable) : ∀ c ∈ e.line.getLast?, Text.isBlank c = false := by
  intro c hc
  rw [line_eq] at hc
  split at hc
  · exact (h.of_mem_type (List.mem_of_mem_getLast? hc)).2
  · rename_i hmessage
    have hsome : e.message.toList.getLast?.isSome = true :=
      List.getLast?_isSome.mpr (mt String.toList_eq_nil_iff.mp hmessage)
    have hend : e.type.toList ++ ':' :: ' ' :: e.message.toList =
        e.type.toList ++ [':', ' '] ++ e.message.toList := by simp
    rw [hend, List.getLast?_append, Option.or_of_isSome hsome, ← h.stripped] at hc
    exact Text.isBlank_getLast_stripChars hc

theorem Printable.isLineEnd_line (h : e.Printable) : ∀ c ∈ e.line, Text.isLineEnd c = false := by
  have htype : ∀ c ∈ e.type.toList, Text.isLineEnd c = false := fun c hc =>
    Bool.eq_false_iff.mpr fun hend =>
      Bool.eq_false_iff.mp (h.of_mem_type hc).2 (Text.isBlank_of_isLineEnd hend)
  intro c hc
  rw [line_eq] at hc
  split at hc
  · exact htype c hc
  · have hparts : c ∈ e.type.toList ∨ c = ':' ∨ c = ' ' ∨ c ∈ e.message.toList := by
      simpa using hc
    rcases hparts with hc | rfl | rfl | hc
    · exact htype c hc
    · decide
    · decide
    · exact h.message c hc

end Raised

theorem before_eq (frames : List Frame) : ∃ lines, before frames = lines ++ ['\n'] := by
  obtain rfl | ⟨fs, f, rfl⟩ := List.eq_nil_or_concat frames
  · exact ⟨_, List.append_nil opening⟩
  · have hcalls : calls (fs.concat f) = calls fs ++ f.text.toList := by
      rw [List.concat_eq_append, calls, List.flatMap_append, List.flatMap_singleton]
      rfl
    have htext : f.text.toList = ("  " ++ f.place ++ ", in " ++ f.function ++ "\n    " ++
        f.source).toList ++ ['\n'] := String.toList_append
    rw [before, hcalls, htext, ← List.append_assoc, ← List.append_assoc]
    exact ⟨_, rfl⟩

/-- What a report comes to: the last line gives the type and the message if it can be read so, and
else another line may give them. -/
theorem reduce_report {frames : List Frame} {e : Raised} {f : Frame}
    (hframes : ∀ g ∈ frames, g.Legible) (he : e.Printable)
    (hsources : Unmarked (e.line ++ ['\n']) frames) (hmessage : NamesNone ['\n'] e.message.toList)
    (hlast : (frames.filter Frame.inProgram).getLast? = some f) (prependLines : Int) :
    reduce (report frames e) prependLines =
      match (finalLine? e.line).or (lastError (Text.brokenLinesOf (before frames))) with
      | some (type, message) => errorLine type message (some f.line) prependLines
      | none => String.ofList e.line := by
  obtain ⟨lines, hbefore⟩ := before_eq frames
  have hreport : (report frames e).toList = before frames ++ e.line ++ ['\n'] := by
    rw [report, String.toList_ofList, List.append_assoc]
  have hstrip : Text.stripChars (report frames e).toList = before frames ++ e.line := by
    rw [hreport]
    refine Text.stripChars_append (List.append_ne_nil_of_right_ne_nil _ he.line_ne) ?_ ?_ ?_
    · intro c hc
      obtain rfl : 'T' = c := Option.some.inj hc
      decide
    · rw [List.getLast?_append, Option.or_of_isSome (List.getLast?_isSome.mpr he.line_ne)]
      exact he.last_line
    · exact List.all_eq_true.mp (by decide)
  have hline : Text.stripChars e.line = e.line := by
    have hnone : ∀ c ∈ ([] : List Char), Text.isBlank c = true := nofun
    have hstrip := Text.stripChars_append he.line_ne he.head_line he.last_line hnone
    rwa [List.append_nil] at hstrip
  have hblank : Text.blank (report frames e) = false := by
    rw [Text.blank, hreport]
    rfl
  have hlines : Text.brokenLinesOf (before frames ++ e.line) =
      Text.brokenLinesOf (before frames) ++ [e.line] := by
    rw [hbefore, List.append_assoc, List.singleton_append, Text.brokenLinesOf_append,
      Text.brokenLinesOf_line he.line_ne he.isLineEnd_line]
  have herror : ((Text.brokenLinesOf (before frames ++ e.line)).map
      Text.stripChars).reverse.findSome? finalLine? =
      (finalLine? e.line).or (lastError (Text.brokenLinesOf (before frames))) := by
    rw [hlines]
    exact lastError_concat hline _
  have hend : ((Text.brokenLinesOf (before frames ++ e.line)).map Text.stripChars).getLastD [] =
      e.line := by
    rw [hlines, List.map_append, List.map_singleton, hline, List.getLastD_concat]
  have hlineno := programLine_report hframes he hsources hmessage
  rw [reduce, hblank, hlineno, hlast, hstrip, if_neg Bool.false_ne_true]
  dsimp only
  rw [herror, hend]
  rfl

/-! ### The line here and the line there -/

theorem errorHead_toList (type message : String) : (errorHead type message).toList =
    type.toList ++ if message = "" then [] else ':' :: ' ' :: message.toList := by
  rw [errorHead]
  split
  · exact (List.append_nil _).symm
  · simp

theorem errorHead_inj {type type' message message' : String} (h : ':' ∉ type.toList)
    (h' : ':' ∉ type'.toList) (heq : errorHead type message = errorHead type' message') :
    type = type' ∧ message = message' := by
  have hchars := congrArg String.toList heq
  rw [errorHead_toList, errorHead_toList] at hchars
  have hkeep {u : String} (hu : ':' ∉ u.toList) : ∀ c ∈ u.toList, decide (c ≠ ':') = true :=
    fun c hc => decide_eq_true fun heq => hu (heq ▸ hc)
  have hstop (m : String) :
      (if m = "" then [] else ':' :: ' ' :: m.toList).takeWhile (· ≠ ':') = [] := by
    split <;> rfl
  have htype : type.toList = type'.toList := by
    have htaken := congrArg (List.takeWhile (· ≠ ':')) hchars
    rwa [List.takeWhile_append_of_pos (hkeep h), List.takeWhile_append_of_pos (hkeep h'), hstop,
      hstop, List.append_nil, List.append_nil] at htaken
  rw [htype] at hchars
  have hrest := List.append_cancel_left hchars
  refine ⟨String.toList_injective htype, ?_⟩
  split at hrest
  · rename_i hempty
    split at hrest
    · rename_i hempty'
      rw [hempty, hempty']
    · exact absurd hrest nofun
  · split at hrest
    · exact absurd hrest nofun
    · exact String.toList_injective (List.cons.inj (List.cons.inj hrest).2).2

theorem errorLine_inj {type type' message message' : String} {line prependLines : Int}
    (h : ':' ∉ type.toList) (h' : ':' ∉ type'.toList)
    (heq : errorLine type message (some line) prependLines =
      errorLine type' message' (some line) prependLines) : type = type' ∧ message = message' := by
  have hchars := congrArg String.toList heq
  simp only [errorLine, String.toList_append, List.append_right_inj] at hchars
  exact errorHead_inj h h' (String.toList_injective hchars)

theorem colon_not_mem_of_finalLine? {cs : List Char} {type message : String}
    (h : finalLine? cs = some (type, message)) : ':' ∉ type.toList := by
  rw [finalLine?] at h
  dsimp only at h
  split at h
  · exact absurd h nofun
  · split at h
    · obtain ⟨rfl, -⟩ := Prod.mk.inj (Option.some.inj h)
      intro hcolon
      rw [String.toList_ofList, lastComponent] at hcolon
      have hlast := List.getLastD_mem_cons (l := Text.splitAt '.' (cs.takeWhile (· ≠ ':')))
        (a := [])
      rcases List.mem_cons.mp hlast with hnil | hpiece
      · rw [hnil] at hcolon
        exact absurd hcolon List.not_mem_nil
      · have hkept := List.mem_takeWhile_imp (Text.of_mem_splitAt hpiece hcolon)
        exact absurd hkept (by decide)
    · exact absurd h nofun

/-- A line without a number is not one with a number, when its type is a name. -/
theorem line_ne_errorLine {e : Raised} (he : e.Printable) (line prependLines : Int) :
    String.ofList e.line ≠ errorLine e.name e.message (some line) prependLines := by
  intro heq
  have hword : ∀ c ∈ e.type.toList, decide (c ≠ ' ') = true := fun c hc =>
    decide_eq_true fun heq => absurd (he.of_mem_type hc).2 (by rw [heq]; decide)
  have hchars := congrArg String.toList heq
  rw [String.toList_ofList, Raised.line_eq] at hchars
  simp only [errorLine, String.toList_append, List.append_assoc] at hchars
  -- What stands before the first blank is a word here, and the type with a colon there.
  split at hchars
  · have hblank : ' ' ∈ e.type.toList := by
      rw [hchars]
      exact List.mem_append_left _ (by decide)
    exact absurd (hword ' ' hblank) (by decide)
  · have hhere (cs : List Char) : ("Line ".toList ++ cs).takeWhile (· ≠ ' ') = "Line".toList := rfl
    have hthere (cs : List Char) : (':' :: ' ' :: cs).takeWhile (· ≠ ' ') = [':'] := rfl
    have htaken := congrArg (List.takeWhile (· ≠ ' ')) hchars
    rw [List.takeWhile_append_of_pos hword, hhere, hthere] at htaken
    have hlast := congrArg List.getLast? htaken
    rw [List.getLast?_concat] at hlast
    exact absurd hlast (by decide)

/-- Here and there an exception is shown as the same line exactly when it has a message and its type
a name of the usual form, or a line of the program reads like it. -/
theorem report_reduced_iff {frames : List Frame} {e : Raised} {f : Frame}
    (hframes : ∀ g ∈ frames, g.Legible) (he : e.Printable)
    (hsources : Unmarked (e.line ++ ['\n']) frames) (hmessage : NamesNone ['\n'] e.message.toList)
    (hlast : (frames.filter Frame.inProgram).getLast? = some f) (prependLines : Nat) :
    ∃ here there, Execution.describe [("type", .str e.name), ("message", .str e.message),
        ("lineno", .int f.line)] prependLines = .ok (.str here) ∧
      here = errorLine e.name e.message (some f.line) prependLines ∧
      reduceTraceback (report frames e) prependLines = .ok there ∧
      (there = here ↔ (e.message ≠ "" ∧ isErrorType e.type.toList = true) ∨
        lastError (Text.brokenLinesOf (before frames)) = some (e.name, e.message)) := by
  have hreduced := reduce_report hframes he hsources hmessage hlast prependLines
  have hdescribe := Execution.Request.describe_eq_errorLine e.name (.str e.message) (some f.line)
    prependLines
  rw [Value.messageText_str] at hdescribe
  refine ⟨_, _, hdescribe, rfl, congrArg Except.ok hreduced, ?_⟩
  · rw [finalLine?_line he]
    by_cases hread : e.message ≠ "" ∧ isErrorType e.type.toList = true
    · rw [if_pos hread]
      exact iff_of_true rfl (.inl hread)
    · rw [if_neg hread, Option.none_or]
      cases herror : lastError (Text.brokenLinesOf (before frames)) with
      | none => exact iff_of_false (line_ne_errorLine he _ _) fun hor => hor.elim hread nofun
      | some read =>
          obtain ⟨type, message⟩ := read
          obtain ⟨line, -, hfinal⟩ := List.exists_of_findSome?_eq_some herror
          have hcolon := colon_not_mem_of_finalLine? hfinal
          refine ⟨fun heq => ?_, fun hor => ?_⟩
          · obtain ⟨rfl, rfl⟩ := errorLine_inj hcolon he.colon_not_mem heq
            exact .inr rfl
          · rcases hor with hread' | heq
            · exact absurd hread' hread
            · obtain ⟨rfl, rfl⟩ := Prod.mk.inj (Option.some.inj heq)
              rfl

/-- A type that is named like the ending of its kind is not read, and the line is not shown. -/
theorem report_reduced_iff_bare : ∃ frames e there, e.type = "Exception" ∧ e.message = "boom" ∧
    reduceTraceback (report frames e) 0 = .ok there ∧
    there ≠ errorLine e.name e.message (some 3) 0 := by
  let f : Frame := ⟨"script.py", 3, "<module>", "raise Exception('boom')"⟩
  let e : Raised := ⟨[], "Exception", "boom"⟩
  have hf : ∀ g ∈ [f], g.Legible := by
    intro g hg
    obtain rfl := List.mem_singleton.mp hg
    exact ⟨by decide, by decide, by decide⟩
  have hchars {p : Char → Prop} [DecidablePred p] {l : List Char} (h : l.all (p ·)) :
      ∀ c ∈ l, p c :=
    fun c hc => of_decide_eq_true (List.all_eq_true.mp h c hc)
  have he : e.Printable := {
    name_ne := by decide
    parts := List.forall_mem_singleton.mpr (hchars (by decide))
    message := hchars (by decide)
    stripped := by decide }
  have hquiet (line : String) (h : '"' ∉ line.toList) (rest : List Char) :
      NamesNone ('\n' :: rest) line.toList :=
    namesNone_of_not_mem (x := '"') (by decide) (by decide) h rest
  obtain ⟨here, there, -, rfl, hthere, hiff⟩ := report_reduced_iff hf he
    ⟨hquiet f.source (by decide) _, trivial⟩ (hquiet e.message (by decide) [])
    (f := f) (by decide) 0
  refine ⟨[f], e, there, by decide, rfl, hthere, fun heq => ?_⟩
  rcases hiff.mp heq with ⟨-, htype⟩ | herror
  · exact absurd htype (by decide)
  · exact absurd herror (by decide +kernel)

end Rerun.Traceback
