import Mathlib.Data.List.DropRight
import Rerun.Proofs.Program.Scaffold
import Rerun.Proofs.Remote.Escapes

/-!
Reports of a program that stands further down. Elsewhere the whole text is run, so the places in the
program that are printed there are further down by the lines before its code; all else is printed
alike. Reduced to one line, such a report is the one of the code (`reduce_below`). What is
made of it differs from what is made of the report of the code in the printed errors only, which are
handed on as they are (`Execution.judgedOutcome_below`).
-/

namespace Rerun

namespace Traceback

/-! ### Lines of a report -/

/-- A line that stands in a report before the last one: it names a place, or it names none. -/
inductive Entry where
  | place (indent file : List Char) (line : Nat) (rest : List Char)
  | other (text : List Char)
  deriving DecidableEq

structure Silent (cs : List Char) : Prop where
  nothing : ¬ "File \"".toList <:+: cs
  oneLine : ∀ c ∈ cs, Text.isLineEnd c = false

namespace Entry

def named (file : List Char) (line : Nat) (rest : List Char) : List Char :=
  "File \"".toList ++ (file ++ ("\", line ".toList ++ (Nat.toDigits 10 line ++ rest)))

def text : Entry → List Char
  | place indent file line rest => indent ++ named file line rest
  | other text => text

def marker? : Entry → Option Marker
  | place _ file line _ => some
      ⟨file, Nat.toDigits 10 line, 6 + file.length + 8 + (Nat.toDigits 10 line).length⟩
  | other _ => none

def line? : Entry → Option Nat
  | place _ file line _ => if programFiles.any (·.toList.isSuffixOf file) then some line else none
  | other _ => none

/-- The line that is printed for the same program so many lines further down. -/
def below (k : Nat) : Entry → Entry
  | place indent file line rest =>
      place indent file
        (if programFiles.any (·.toList.isSuffixOf file) then line + k else line) rest
  | other text => other text

/-- The line can be read as what it is. -/
inductive Legible : Entry → Prop
  | place {indent file rest : List Char} {line : Nat} :
    (∀ c ∈ indent, c = ' ') → file ≠ [] → (∀ c ∈ file, c ≠ '"' ∧ Text.isLineEnd c = false) →
    rest.takeWhile Text.isDigit = [] → Silent rest → Legible (place indent file line rest)
  | other {text : List Char} : Silent text → Legible (other text)

variable {e : Entry} {k : Nat}

theorem line?_below (k : Nat) (e : Entry) : (e.below k).line? = e.line?.map (· + k) := by
  cases e with
  | place indent file line rest =>
      simp only [below, line?]
      split <;> rfl
  | other text => rfl

/-- What can be read further down can be read where the program stands alone. -/
theorem Legible.of_below (h : (e.below k).Legible) : e.Legible := by
  cases e with
  | place indent file line rest =>
      obtain ⟨hindent, hne, hfile, hdigit, hrest⟩ := h
      exact .place hindent hne hfile hdigit hrest
  | other text => exact h

end Entry

/-- A report: its lines and the last of them, which tells of the exception. -/
def printed (entries : List Entry) (last : List Char) : String :=
  String.ofList (entries.flatMap (·.text ++ ['\n']) ++ (last ++ ['\n']))

/-- A last line: it is not empty, and has no blanks around it. -/
structure Closing (last : List Char) : Prop extends Silent last where
  ne : last ≠ []
  stripped : Text.stripChars last = last

/-! ### The places -/

variable {entries : List Entry} {last : List Char} {e : Entry}

theorem Silent.markersFrom {cs : List Char} (h : Silent cs) (rest : List Char) :
    markersFrom 0 (cs ++ '\n' :: rest) = markersFrom 0 rest :=
  (markersFrom_append (namesNone_of_absent (by decide) h.nothing rest)).trans
    (markersFrom_append (namesNone_of_no_start ['\n'] (by decide) rest))

theorem Entry.Legible.markersFrom (h : e.Legible) (rest : List Char) :
    markersFrom 0 (e.text ++ '\n' :: rest) = e.marker?.toList ++ markersFrom 0 rest := by
  cases h with
  | other h => exact h.markersFrom rest
  | @place indent file after line hindent hne hfile hdigit hafter =>
      let name := "File \"".toList ++ (file ++ ("\", line ".toList ++ Nat.toDigits 10 line))
      have htext : (Entry.place indent file line after).text ++ '\n' :: rest =
          indent ++ (name ++ (after ++ '\n' :: rest)) := by
        simp [Entry.text, Entry.named, name]
      have hblank : 'F' ∉ indent := fun hF => absurd (hindent _ hF) (by decide)
      have hquote : '"' ∉ file := fun hc => (hfile _ hc).1 rfl
      have hafter' : (after ++ '\n' :: rest).takeWhile Text.isDigit = [] := by
        cases after with
        | nil => rfl
        | cons c cs =>
            have hc : ¬ Text.isDigit c = true := by
              intro hc
              simp [hc] at hdigit
            exact List.takeWhile_cons_of_neg hc
      have hmarker := marker?_named hne hquote line hafter'
      have hname : "File \"".toList ++ (file ++ ("\", line ".toList ++
          (Nat.toDigits 10 line ++ (after ++ '\n' :: rest)))) =
          name ++ (after ++ '\n' :: rest) := by
        simp [name]
      rw [hname] at hmarker
      have hsize : 6 + file.length + 8 + (Nat.toDigits 10 line).length = name.length := by
        simp [name]
        omega
      rw [htext, markersFrom_append (namesNone_of_no_start indent hblank _),
        markersFrom_of_marker? hmarker (List.cons_ne_nil 'F' _) hsize, hafter.markersFrom]
      rfl

theorem markersFrom_entries (h : ∀ e ∈ entries, e.Legible) (rest : List Char) :
    markersFrom 0 (entries.flatMap (·.text ++ ['\n']) ++ rest) =
      entries.filterMap Entry.marker? ++ markersFrom 0 rest := by
  induction entries with
  | nil => rfl
  | cons e entries ih =>
      have he := (h e List.mem_cons_self).markersFrom (entries.flatMap (·.text ++ ['\n']) ++ rest)
      rw [List.flatMap_cons, List.append_assoc, List.append_assoc, List.singleton_append, he,
        ih fun f hf => h f (List.mem_cons_of_mem e hf), ← List.append_assoc]
      cases hmarker : e.marker? <;> simp [hmarker]

theorem markers_printed (h : ∀ e ∈ entries, e.Legible) (hlast : Closing last) :
    markers (printed entries last).toList = entries.filterMap Entry.marker? := by
  have hend : markersFrom 0 (last ++ ['\n']) = [] := hlast.markersFrom []
  rw [markers, printed, String.toList_ofList, markersFrom_entries h, hend, List.append_nil]

theorem Entry.line?_eq (e : Entry) :
    e.line? = (e.marker?.filter Marker.inProgram).map Marker.line := by
  cases e with
  | place indent file line rest =>
      have hline : Marker.line ⟨file, Nat.toDigits 10 line,
          6 + file.length + 8 + (Nat.toDigits 10 line).length⟩ = line :=
        Text.valueOfDigits_toDigits line
      have hprogram : Marker.inProgram ⟨file, Nat.toDigits 10 line,
          6 + file.length + 8 + (Nat.toDigits 10 line).length⟩ =
            programFiles.any (·.toList.isSuffixOf file) := rfl
      simp only [Entry.line?, Entry.marker?, Option.filter_some]
      rw [hprogram]
      by_cases hin : (programFiles.any (·.toList.isSuffixOf file)) = true
      · rw [if_pos hin, if_pos hin, Option.map_some, hline]
      · rw [if_neg hin, if_neg hin]
        rfl
  | other text => rfl

theorem programLine_printed (h : ∀ e ∈ entries, e.Legible) (hlast : Closing last) :
    programLine (printed entries last).toList = (entries.filterMap Entry.line?).getLast? := by
  rw [programLine, markers_printed h hlast, ← List.getLast?_map, List.filter_filterMap,
    List.map_filterMap]
  simp only [Entry.line?_eq]

/-! ### The exception -/

theorem lastError_cons (l : List Char) (ls : List (List Char)) :
    lastError (l :: ls) = (lastError ls).or (finalLine? (Text.stripChars l)) := by
  simp [lastError, List.findSome?_append]

theorem lastError_blank {c : Char} (h : Text.isBlank c = true) (cs : List Char) :
    lastError (Text.brokenLinesOf (c :: cs)) = lastError (Text.brokenLinesOf cs) := by
  have hempty (ls : List (List Char)) : lastError ([] :: ls) = lastError ls := by
    rw [lastError_cons]
    exact Option.or_none
  by_cases hr : c = '\r' ∧ cs.head? = some '\n'
  · obtain ⟨rfl, hhead⟩ := hr
    obtain ⟨rest, rfl⟩ := List.head?_eq_some_iff.mp hhead
    rfl
  · rw [Text.brokenLinesOf_cons fun hc hhead => hr ⟨hc, hhead⟩]
    split
    · exact hempty _
    · cases Text.brokenLinesOf cs with
      | nil =>
          have hstrip : Text.stripChars [c] = [] := by
            simp [Text.stripChars, Text.dropEndWhile, h]
          rw [Text.consWord, lastError_cons, hstrip]
          rfl
      | cons w ws =>
          have hstrip : Text.stripChars (c :: w) = Text.stripChars w := by
            simp [Text.stripChars, h]
          rw [Text.consWord, lastError_cons, lastError_cons, hstrip]

theorem lastError_dropWhile (cs : List Char) :
    lastError (Text.brokenLinesOf (cs.dropWhile Text.isBlank)) =
      lastError (Text.brokenLinesOf cs) := by
  induction cs with
  | nil => rfl
  | cons c cs ih =>
      by_cases h : Text.isBlank c = true
      · rw [List.dropWhile_cons_of_pos h, ih, lastError_blank h]
      · rw [List.dropWhile_cons_of_neg h]

theorem Entry.Legible.oneLine (h : e.Legible) : ∀ c ∈ e.text, Text.isLineEnd c = false := by
  cases h with
  | other h => exact h.oneLine
  | @place indent file after line hindent _ hfile _ hafter =>
      intro c hc
      have hparts : c ∈ indent ∨ c ∈ "File \"".toList ∨ c ∈ file ∨ c ∈ "\", line ".toList ∨
          c ∈ Nat.toDigits 10 line ∨ c ∈ after := by
        simpa only [Entry.text, Entry.named, List.mem_append] using hc
      have hfixed : ∀ c ∈ "File \"".toList ++ "\", line ".toList, Text.isLineEnd c = false := by
        decide
      rcases hparts with hc | hc | hc | hc | hc | hc
      · rw [hindent c hc]
        decide
      · exact hfixed c (List.mem_append_left _ hc)
      · exact (hfile c hc).2
      · exact hfixed c (List.mem_append_right _ hc)
      · exact Text.isLineEnd_of_mem_toDigits hc
      · exact hafter.oneLine c hc

theorem brokenLinesOf_ended {line : List Char} (h : ∀ c ∈ line, Text.isLineEnd c = false) :
    Text.brokenLinesOf (line ++ ['\n']) = [line] := by
  induction line with
  | nil => rfl
  | cons c cs ih =>
      have hc : Text.isLineEnd c = false := h c List.mem_cons_self
      have hcr : c = '\r' → (cs ++ ['\n']).head? ≠ some '\n' := by
        rintro rfl
        exact absurd hc (by decide)
      rw [List.cons_append, Text.brokenLinesOf_cons hcr, if_neg (Bool.not_eq_true _ ▸ hc),
        ih fun x hx => h x (List.mem_cons_of_mem c hx)]
      rfl

theorem brokenLinesOf_entries (h : ∀ e ∈ entries, e.Legible) :
    Text.brokenLinesOf (entries.flatMap (·.text ++ ['\n'])) = entries.map Entry.text := by
  induction entries with
  | nil => rfl
  | cons e entries ih =>
      rw [List.flatMap_cons, List.append_assoc, List.singleton_append, Text.brokenLinesOf_append,
        brokenLinesOf_ended (h e List.mem_cons_self).oneLine,
        ih fun f hf => h f (List.mem_cons_of_mem e hf)]
      rfl

theorem finalLine?_place (indent file rest : List Char) (line : Nat)
    (hindent : ∀ c ∈ indent, c = ' ') :
    finalLine? (Text.stripChars (Entry.place indent file line rest).text) = none := by
  have hblank : ∀ c ∈ indent, Text.isBlank c = true := fun c hc => by
    rw [hindent c hc]
    decide
  obtain ⟨more, hmore⟩ : ∃ more, Text.stripChars (Entry.place indent file line rest).text =
      "File \"".toList ++ more := by
    have hfile (cs : List Char) : ("File \"".toList ++ cs).dropWhile Text.isBlank =
        "File \"".toList ++ cs := rfl
    have hend : "File \"".toList.reverse.dropWhile Text.isBlank = "File \"".toList.reverse := rfl
    rw [Entry.text, Entry.named, Text.stripChars, List.dropWhile_append_of_pos hblank, hfile,
      Text.dropEndWhile, List.reverse_append, List.dropWhile_append, hend]
    split
    · exact ⟨[], by simp⟩
    · exact ⟨_, by rw [List.reverse_append, List.reverse_reverse]⟩
  have htaken : ("File \"".toList ++ more).takeWhile (· ≠ ':') =
      "File \"".toList ++ more.takeWhile (· ≠ ':') :=
    List.takeWhile_append_of_pos (by decide)
  have htype (cs : List Char) : isErrorType ("File \"".toList ++ cs) = false := by
    have hword : Text.isWordChar ' ' = false := by decide
    simp [isErrorType, hword]
  rw [hmore, finalLine?, htaken]
  dsimp only
  rw [htype]
  split <;> rfl

theorem lastError_below {k : Nat} (h : ∀ e ∈ entries, e.Legible) :
    lastError ((entries.map (Entry.below k)).map Entry.text) =
      lastError (entries.map Entry.text) := by
  induction entries with
  | nil => rfl
  | cons e entries ih =>
      have hline : finalLine? (Text.stripChars (e.below k).text) =
          finalLine? (Text.stripChars e.text) := by
        cases h e List.mem_cons_self with
        | other => rfl
        | place hindent => rw [Entry.below, finalLine?_place _ _ _ _ hindent,
            finalLine?_place _ _ _ _ hindent]
      simp only [List.map_cons, lastError_cons, hline,
        ih fun f hf => h f (List.mem_cons_of_mem e hf)]

/-! ### One line for a report -/

theorem Closing.head (hlast : Closing last) : ∀ c ∈ last.head?, Text.isBlank c = false :=
  fun _ hc => Text.isBlank_head_stripChars (hlast.stripped.symm ▸ hc)

theorem blank_printed (hlast : Closing last) : Text.blank (printed entries last) = false := by
  obtain ⟨c, cs, rfl⟩ := List.exists_cons_of_ne_nil hlast.ne
  have hc : Text.isBlank c = false := hlast.head c rfl
  simp [Text.blank, printed, hc]

/-- What stands before the last line of a report, without the blanks at its beginning. -/
def places (entries : List Entry) : List Char :=
  (entries.flatMap (·.text ++ ['\n'])).dropWhile Text.isBlank

theorem dropWhile_printed (hlast : Closing last) :
    (printed entries last).toList.dropWhile Text.isBlank = places entries ++ last ++ ['\n'] := by
  have hkept : (last ++ ['\n']).dropWhile Text.isBlank = last ++ ['\n'] := by
    obtain ⟨c, cs, rfl⟩ := List.exists_cons_of_ne_nil hlast.ne
    have hc : Text.isBlank c = false := hlast.head c rfl
    simp [hc]
  rw [printed, String.toList_ofList, List.dropWhile_append, hkept]
  split
  · rename_i hnil
    have hnone : places entries = [] := List.isEmpty_iff.mp hnil
    rw [hnone, List.nil_append]
  · simp [places]

theorem stripChars_printed (hlast : Closing last) :
    Text.stripChars (printed entries last).toList = places entries ++ last := by
  have hsame : Text.stripChars (printed entries last).toList =
      Text.stripChars (places entries ++ last ++ ['\n']) := by
    rw [← dropWhile_printed hlast, Text.stripChars, Text.stripChars, List.dropWhile_idempotent]
  rw [hsame]
  refine Text.stripChars_append (List.append_ne_nil_of_right_ne_nil _ hlast.ne) ?_ ?_ (by decide)
  · have hnot := List.head?_dropWhile_not Text.isBlank (entries.flatMap (·.text ++ ['\n']))
    intro c hc
    rw [List.head?_append] at hc
    cases hhead : (places entries).head? with
    | none => exact hlast.head c (by simpa [hhead] using hc)
    | some d =>
        obtain rfl : d = c := by simpa [hhead] using hc
        rw [places] at hhead
        rwa [hhead] at hnot
  · rw [List.getLast?_append, Option.or_of_isSome (List.getLast?_isSome.mpr hlast.ne)]
    exact fun c hc => Text.isBlank_getLast_stripChars (hlast.stripped.symm ▸ hc)

theorem brokenLinesOf_places (hlast : Closing last) :
    Text.brokenLinesOf (places entries ++ last) =
      Text.brokenLinesOf (places entries) ++ [last] := by
  have hline := Text.brokenLinesOf_line hlast.ne hlast.oneLine
  obtain hnil | ⟨ls, hls⟩ : places entries = [] ∨ ∃ ls, places entries = ls ++ ['\n'] := by
    have hsuffix : places entries <:+ entries.flatMap (·.text ++ ['\n']) := List.dropWhile_suffix _
    obtain hnil | ⟨init, e, hinit⟩ := List.eq_nil_or_concat entries
    · exact .inl (by simp [places, hnil])
    · have hbody : entries.flatMap (·.text ++ ['\n']) =
          init.flatMap (·.text ++ ['\n']) ++ e.text ++ ['\n'] := by
        simp [hinit]
      rw [hbody, List.suffix_concat_iff] at hsuffix
      exact hsuffix.imp id fun ⟨ls, hls, _⟩ => ⟨ls, hls⟩
  · rw [hnil, List.nil_append, hline]
    rfl
  · rw [hls, List.append_assoc, List.singleton_append, Text.brokenLinesOf_append, hline]

/-- The last line of a report, or else another one, tells of the exception; the last place in the
program gives it its line. -/
theorem reduce_printed (h : ∀ e ∈ entries, e.Legible) (hlast : Closing last)
    (prependLines : Int) : reduce (printed entries last) prependLines =
      match (finalLine? last).or (lastError (entries.map Entry.text)) with
      | some (type, message) => errorLine type message
          ((entries.filterMap Entry.line?).getLast?.map Int.ofNat) prependLines
      | none => String.ofList last := by
  have hlines : Text.brokenLinesOf (places entries ++ last) =
      Text.brokenLinesOf (places entries) ++ [last] := brokenLinesOf_places hlast
  have hbefore : lastError (Text.brokenLinesOf (places entries)) =
      lastError (entries.map Entry.text) := by
    rw [places, lastError_dropWhile, brokenLinesOf_entries h]
  have herror : ((Text.brokenLinesOf (places entries ++ last)).map
      Text.stripChars).reverse.findSome? finalLine? =
      (finalLine? last).or (lastError (entries.map Entry.text)) := by
    rw [hlines, ← hbefore]
    exact lastError_concat hlast.stripped _
  have hend : ((Text.brokenLinesOf (places entries ++ last)).map Text.stripChars).getLastD [] =
      last := by
    rw [hlines, List.map_append, List.map_singleton, hlast.stripped, List.getLastD_concat]
  rw [reduce, blank_printed hlast, programLine_printed h hlast, stripChars_printed hlast,
    if_neg Bool.false_ne_true]
  dsimp only
  rw [herror]
  cases (finalLine? last).or (lastError (entries.map Entry.text)) with
  | some found => rfl
  | none => rw [hend]

theorem lines_below (k : Nat) (entries : List Entry) :
    (entries.map (Entry.below k)).filterMap Entry.line? =
      (entries.filterMap Entry.line?).map (· + k) := by
  rw [List.filterMap_map, List.map_filterMap]
  exact List.filterMap_congr fun e _ => Entry.line?_below k e

/-- A report of a program further down comes to the line that a report of the code comes to. -/
theorem reduce_below {k : Nat} (h : ∀ e ∈ entries, (e.below k).Legible) (hlast : Closing last) :
    reduce (printed (entries.map (Entry.below k)) last) k = reduce (printed entries last) 0 := by
  have hcode : ∀ e ∈ entries, e.Legible := fun e he => (h e he).of_below
  have hline (line : Option Nat) (type message : String) :
      errorLine type message ((line.map (· + k)).map Int.ofNat) k =
        errorLine type message (line.map Int.ofNat) (0 : Nat) := by
    cases line with
    | none => rfl
    | some n =>
        have hn : codeLine (Int.ofNat (n + k)) k = codeLine (Int.ofNat n) (0 : Nat) := by
          simp only [codeLine, Int.ofNat_eq_natCast]
          omega
        simp only [Option.map_some, errorLine, hn]
  rw [reduce_printed hcode hlast, reduce_printed (List.forall_mem_map.mpr h) hlast,
    lastError_below hcode, lines_below, List.getLast?_map]
  simp only [hline]
  rfl

theorem Entry.below_of_line?_eq_none (h : e.line? = none) (k : Nat) : e.below k = e := by
  cases e with
  | other text => rfl
  | place indent file line rest =>
      simp only [line?, ite_eq_right_iff, reduceCtorEq, imp_false] at h
      rw [below, if_neg h]

/-- A report is the same further down only if it names no place in the program. -/
theorem printed_below_eq_iff {k : Nat} (h : ∀ e ∈ entries, (e.below k).Legible)
    (hlast : Closing last) : printed (entries.map (Entry.below k)) last = printed entries last ↔
      k = 0 ∨ programLine (printed entries last).toList = none := by
  have hcode : ∀ e ∈ entries, e.Legible := fun e he => (h e he).of_below
  have hline := programLine_printed hcode hlast
  constructor
  · intro heq
    have hbelow := programLine_printed (List.forall_mem_map.mpr h) hlast
    rw [heq, hline, lines_below, List.getLast?_map] at hbelow
    rw [hline]
    cases hplace : (entries.filterMap Entry.line?).getLast? with
    | none => exact .inr rfl
    | some n =>
        rw [hplace, Option.map_some] at hbelow
        have hn : n = n + k := Option.some.inj hbelow
        exact .inl (by omega)
  · intro hsame
    congr 1
    refine (List.map_congr_left fun e he => ?_).trans (List.map_id entries)
    obtain rfl | hnone := hsame
    · cases e with
      | other text => rfl
      | place indent file line rest => simp [Entry.below]
    · rw [hline] at hnone
      have hnil := List.getLast?_eq_none_iff.mp hnone
      exact Entry.below_of_line?_eq_none (List.filterMap_eq_nil_iff.mp hnil e he) k

/-- What is printed of a program and of the same one so many lines further down: nothing, or the
same report but for the places in the program. -/
inductive Retold (k : Nat) : String → String → Prop
  | blank {text text' : String} : Text.blank text = true → Text.blank text' = true →
    Retold k text text'
  | report {entries : List Entry} {last : List Char} : (∀ e ∈ entries, (e.below k).Legible) →
    Closing last → Retold k (printed entries last) (printed (entries.map (Entry.below k)) last)

/-- A report is the same further down only if it names no place in the program. -/
theorem Retold.eq_iff {k : Nat} {text text' : String} (h : Retold k text text')
    (hprinted : Text.blank text = false) :
    text' = text ↔ k = 0 ∨ programLine text.toList = none := by
  cases h with
  | blank h => exact absurd (h.symm.trans hprinted) nofun
  | report h hlast => exact printed_below_eq_iff h hlast

theorem reduce_retold {k : Nat} {text text' : String} (h : Retold k text text') :
    reduce text' k = reduce text 0 := by
  cases h with
  | blank h h' => simp [reduce, h, h']
  | report h hlast => exact reduce_below h hlast

end Traceback

/-! ### What is made of a report -/

/-- What the judge finds of a program and of the same one so many lines further down, as far as it
is read: it says the same, but for the places in its report. -/
structure RemoteResponse.Below (k : Nat) (response response' : RemoteResponse) : Prop where
  status : response'.status.id = response.status.id
  stdout : response'.stdout = response.stdout
  time : response'.time = response.time
  report : RemoteStatus.runStatus response.status.id ≠ .success →
    Traceback.Retold k (Execution.judgedErrors response) (Execution.judgedErrors response')

/-- What is told of an execution, the printed errors and the time aside. -/
def Outcome.account (o : Outcome) : RunStatus × String × Option String × Option String :=
  (o.status, o.stdout, o.pendingPrompt, o.error)

namespace Execution

variable {r r' : Request} {response response' : RemoteResponse} {others : Interrupts}
  {s s' : Sandbox}

theorem judgedError_below (hr : r.source.prependLines = 0)
    (h : response.Below r'.source.prependLines response') :
    judgedError r' response' = judgedError r response := by
  unfold judgedError
  rw [h.status, hr]
  split
  · rfl
  · rename_i hfailed
    rw [Traceback.reduce_retold (h.report hfailed)]
    rfl

/-- Whether a time can be read does not depend on how long one has waited. -/
theorem judgedMs_map {α : Type} {f f' : Int → α} (h : ∀ ms ms', f ms = f' ms')
    (time : Option String) (elapsed elapsed' : Int) :
    (judgedMs time elapsed).map f = (judgedMs time elapsed').map f' := by
  unfold judgedMs
  split
  · exact congrArg Except.ok (h _ _)
  · exact congrArg Except.ok (h _ _)
  · dsimp only
    split
    · exact congrArg Except.ok (h _ _)
    · rfl

theorem judgedOutcome_eq (r : Request) (started : Int) (response : RemoteResponse)
    (others : Interrupts) (s : Sandbox) : ∃ elapsed,
      (judgedOutcome r started response others s).1 =
        (judgedMs response.time elapsed).map fun timeMs =>
          { status := RemoteStatus.runStatus response.status.id
            stdout := response.stdout.getD "", stderr := judgedErrors response
            error := judgedError r response, timeMs, runId := r.runId, backend := "remote" } := by
  obtain ⟨elapsed, helapsed⟩ := does_elapsedMs started s
  refine ⟨elapsed, ?_⟩
  rw [judgedOutcome, helapsed.step _ others, Op.bind_apply]
  cases judgedMs response.time elapsed <;> rfl

/-- All that is told of a program further down is told of its code, too. -/
theorem judgedOutcome_below (hr : r.source.prependLines = 0)
    (h : response.Below r'.source.prependLines response') (started started' : Int) :
    (judgedOutcome r' started' response' others s').1.map Outcome.account =
      (judgedOutcome r started response others s).1.map Outcome.account := by
  obtain ⟨elapsed, houtcome⟩ := judgedOutcome_eq r started response others s
  obtain ⟨elapsed', houtcome'⟩ := judgedOutcome_eq r' started' response' others s'
  have hmap (result : Except Failure Int) (f : Int → Outcome) :
      (result.map f).map Outcome.account = result.map fun ms => (f ms).account := by
    cases result <;> rfl
  rw [houtcome, houtcome', judgedError_below hr h, h.time, h.status, h.stdout, hmap, hmap]
  refine judgedMs_map (fun ms ms' => ?_) response.time elapsed' elapsed
  rfl

theorem stderr_judgedOutcome {started : Int} {o : Outcome}
    (h : (judgedOutcome r started response others s).1 = .ok o) :
    o.stderr = judgedErrors response := by
  obtain ⟨elapsed, houtcome⟩ := judgedOutcome_eq r started response others s
  rw [houtcome] at h
  cases hms : judgedMs response.time elapsed with
  | error e =>
      rw [hms] at h
      exact absurd h nofun
  | ok ms =>
      rw [hms] at h
      rw [← Except.ok.inj h]

/-! ### Executions at the judge -/

/-- No interpreter starts for an execution, and the judge finds this of its program. -/
def Referred (r : Request) (others : Interrupts) (s : Sandbox) (response : RemoteResponse) : Prop :=
  ∃ e t c u, Registry.acquire Contexts.onSweep (some r.key) others s = (.error e, t) ∧
    e.kind = .initialization ∧ t.setup.remote = some c ∧
    c.execute r.source.text (Text.joinLines r.values) none t.setup.remoteMaxWait r.cancel others t =
      (.ok (some response), u)

/-- A request is referred to the judge, if he is asked when no interpreter starts for it. -/
theorem Referred.of_found {c : RemoteClient} (hremote : s.setup.remote = some c)
    (h : (match Registry.acquire Contexts.onSweep (some r.key) others s with
      | (.error e, t) => decide (e.kind = .initialization) && decide (
          (c.execute r.source.text (Text.joinLines r.values) none s.setup.remoteMaxWait r.cancel
            others t).1.toOption = some (some response))
      | (.ok _, _) => false) = true) : Referred r others s response := by
  have hsetup : (Registry.acquire Contexts.onSweep (some r.key) others s).2.setup = s.setup :=
    ((Registry.recalls_acquire (some r.key)).holds others s).setup
  rcases hacquire : Registry.acquire Contexts.onSweep (some r.key) others s with ⟨e | key, t⟩ <;>
    rw [hacquire] at h hsetup
  · obtain ⟨hkind, hfound⟩ := Bool.and_eq_true_iff.mp h
    have hfound := of_decide_eq_true hfound
    rcases hexecute : c.execute r.source.text (Text.joinLines r.values) none s.setup.remoteMaxWait
      r.cancel others t with ⟨e' | found, u⟩ <;> rw [hexecute] at hfound
    · nomatch hfound
    · obtain rfl := Option.some.inj hfound
      refine ⟨e, t, c, u, hacquire, of_decide_eq_true hkind, ?_, ?_⟩
      · rw [hsetup, hremote]
      · rw [hsetup, hexecute]
  · exact absurd h Bool.false_ne_true

theorem Referred.execute (h : Referred r others s response) (consumed : Int → Op Unit) :
    ∃ started u, Execution.execute Contexts.onSweep consumed r others s =
      judgedOutcome r started response others u := by
  obtain ⟨e, t, c, u, hacquire, hkind, hremote, hfound⟩ := h
  refine ⟨t.clock, u, ?_⟩
  rw [execute_of_judge hacquire hkind hremote, executeRemote_eq, Op.bind_of_eq_ok hfound]

/-- A program that is sent to the judge is told of as its code is, wherever the judge finds it; what
the judge prints is handed on as it is. -/
theorem execute_below (hr : r.source.prependLines = 0) (h : Referred r others s response)
    (h' : Referred r' others s' response')
    (hbelow : response.Below r'.source.prependLines response') (consumed : Int → Op Unit) :
    (execute Contexts.onSweep consumed r' others s').1.map Outcome.account =
        (execute Contexts.onSweep consumed r others s).1.map Outcome.account ∧
      ∀ o o', (execute Contexts.onSweep consumed r others s).1 = .ok o →
        (execute Contexts.onSweep consumed r' others s').1 = .ok o' →
          o.stderr = judgedErrors response ∧ o'.stderr = judgedErrors response' := by
  obtain ⟨started, u, hexecute⟩ := h.execute consumed
  obtain ⟨started', u', hexecute'⟩ := h'.execute consumed
  rw [hexecute, hexecute']
  exact ⟨judgedOutcome_below hr hbelow started started',
    fun o o' ho ho' => ⟨stderr_judgedOutcome ho, stderr_judgedOutcome ho'⟩⟩

end Execution

end Rerun
