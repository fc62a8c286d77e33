import Rerun.Proofs.Program.Placement
import Rerun.Proofs.Text.Lines

/-!
A scaffold of blank lines and comments around the code of a program. The program that is run is that
of the code, as many lines further down as stand before it (`Serving.runProgram_text`); so are its
functions when they are called later (`Serving.call_moved`). Undoing the shift gives the lines of
the code back (`codeLine_below`). Whatever the scaffold holds, each line of the code is found as
many lines further down as are counted before it (`Source.numbered`).
-/

namespace Rerun

namespace Program

/-- A line that does nothing: a blank one, or a comment. -/
def isIdle (line : String) : Bool :=
  Text.strip line = "" || (Text.strip line).toList.head? = some '#'

theorem readLine?_of_isIdle {line : String} (h : isIdle line = true) :
    readLine? line = some .blank :=
  if_pos h

variable {idle ls : List String} {n : Nat}

/-! ### Reading -/

theorem readLines_idle (h : ∀ l ∈ idle, isIdle l = true) (n : Nat) :
    readLines n idle = .ok (List.replicate idle.length .blank) := by
  induction idle generalizing n with
  | nil => rfl
  | cons l idle ih =>
      rw [readLines, readLine?_of_isIdle (h l List.mem_cons_self)]
      dsimp only
      rw [ih (fun x hx => h x (List.mem_cons_of_mem l hx))]
      rfl

theorem readLines_idle_append (h : ∀ l ∈ idle, isIdle l = true) (n : Nat) (ls : List String) :
    readLines n (idle ++ ls) =
      (readLines (n + idle.length) ls).map (List.replicate idle.length .blank ++ ·) := by
  induction idle generalizing n with
  | nil =>
      rw [List.nil_append, List.length_nil, Nat.add_zero]
      cases readLines n ls <;> rfl
  | cons l idle ih =>
      rw [List.cons_append, readLines, readLine?_of_isIdle (h l List.mem_cons_self)]
      dsimp only
      rw [ih (fun x hx => h x (List.mem_cons_of_mem l hx)), List.length_cons, Nat.add_right_comm,
        Nat.add_assoc n]
      cases readLines (n + (idle.length + 1)) ls <;> rfl

/-- Idle lines after a program are read only when the program itself can be. -/
theorem readLines_append_idle (h : ∀ l ∈ idle, isIdle l = true) (n : Nat) (ls : List String) :
    readLines n (ls ++ idle) =
      (readLines n ls).map (· ++ List.replicate idle.length .blank) := by
  induction ls generalizing n with
  | nil => exact readLines_idle h n
  | cons l ls ih =>
      rw [List.cons_append, readLines, readLines]
      cases readLine? l with
      | none => rfl
      | some line =>
          dsimp only
          rw [ih]
          cases readLines (n + 1) ls <;> rfl

theorem readLines_add (n k : Nat) (ls : List String) :
    readLines (n + k) ls = (readLines n ls).mapError (· + k) := by
  induction ls generalizing n with
  | nil => rfl
  | cons l ls ih =>
      rw [readLines, readLines]
      cases readLine? l with
      | none => rfl
      | some line =>
          dsimp only
          rw [Nat.add_right_comm, ih]
          cases readLines (n + 1) ls <;> rfl

theorem le_of_readLines {k : Nat} (h : readLines n ls = .error k) : n ≤ k := by
  induction ls generalizing n with
  | nil => exact absurd h nofun
  | cons l ls ih =>
      rw [readLines] at h
      cases hline : readLine? l with
      | none =>
          rw [hline] at h
          exact Nat.le_of_eq (Except.error.inj h)
      | some line =>
          rw [hline] at h
          dsimp only at h
          cases hrest : readLines (n + 1) ls with
          | ok lines =>
              rw [hrest] at h
              exact absurd h nofun
          | error k' =>
              rw [hrest] at h
              obtain rfl := Except.error.inj h
              exact Nat.le_of_succ_le (ih hrest)

/-! ### Running -/

theorem runLines_blanks (k n : Nat) : runLines n (List.replicate k .blank) = pure () := by
  induction k generalizing n with
  | zero => rfl
  | succ k ih =>
      rw [List.replicate_succ, runLines, ih]
      rfl

theorem runLines_blanks_append (k n : Nat) (ls : List Line) :
    runLines n (List.replicate k .blank ++ ls) = runLines (n + k) ls := by
  induction k generalizing n with
  | zero => rfl
  | succ k ih =>
      rw [List.replicate_succ, List.cons_append, runLines, ih, Nat.add_right_comm, Nat.add_assoc n]
      rfl

theorem runLines_append_blanks (k n : Nat) (ls : List Line) :
    runLines n (ls ++ List.replicate k .blank) = runLines n ls := by
  induction ls generalizing n with
  | nil => exact runLines_blanks k n
  | cons l ls ih => rw [List.cons_append, runLines, runLines, ih]

/-! ### Further down -/

/-- The place that many lines further down. What belongs to no line is not moved. -/
def below (k : Nat) : Placement := ⟨fun n => if n = 0 then 0 else n + k, id⟩

theorem below_line {n : Nat} (h : 1 ≤ n) (k : Nat) : (below k).line n = n + k :=
  if_neg (Nat.one_le_iff_ne_zero.mp h)

theorem allows_below (k : Nat) (u : Use) : (below k).allows u := by
  cases u with
  | seek => rfl
  | drain => trivial
  | rescue => trivial

theorem within_below (k : Nat) (uses : Use → Bool) : Within (below k).allows uses :=
  fun u _ => allows_below k u

theorem allowed_below (k : Nat) (names : Names) : names.Allowed (below k).allows :=
  fun f _ => within_below k f.uses

end Program

/-- Undoing a shift gives the line back that was shifted. -/
theorem codeLine_below (k n : Nat) : codeLine ((Program.below k).line n) k = codeLine n 0 := by
  unfold codeLine
  by_cases h : n = 0
  · subst h
    show max 1 ((0 : Nat) - (k : Int)) = max 1 ((0 : Nat) - (0 : Int))
    omega
  · rw [Program.below_line (Nat.one_le_iff_ne_zero.mpr h)]
    omega

def Text.line? (s : String) : Nat → Option String
  | 0 => none
  | n + 1 => (lines s)[n]?

namespace Source

open Program

/-- A scaffold that does nothing: each of its lines is blank or a comment. -/
structure Quiet (s : Source) : Prop where
  prepend : ∀ l ∈ Text.lines s.prepend, isIdle l = true
  postpend : ∀ l ∈ Text.lines s.postpend, isIdle l = true

instance (s : Source) : Decidable s.Quiet :=
  decidable_of_iff ((∀ l ∈ Text.lines s.prepend, isIdle l = true) ∧
    ∀ l ∈ Text.lines s.postpend, isIdle l = true) ⟨fun h => ⟨h.1, h.2⟩, fun h => ⟨h.1, h.2⟩⟩

def bare (s : Source) : Source := { code := s.code }

theorem prependLines_bare (s : Source) : s.bare.prependLines = 0 := rfl

theorem text_bare (s : Source) : s.bare.text = s.code := by
  have hparts : s.bare.parts = [s.code] := by simp [parts, bare]
  rw [text, hparts]
  exact String.intercalate_singleton

def linesOf (part : String) : List String := if part = "" then [] else Text.lines part

theorem length_linesOf_prepend (s : Source) : (linesOf s.prepend).length = s.prependLines := by
  unfold linesOf prependLines
  split
  · rfl
  · exact Text.length_lines _

theorem isIdle_of_mem_linesOf {part : String} (h : ∀ l ∈ Text.lines part, isIdle l = true) :
    ∀ l ∈ linesOf part, isIdle l = true := by
  unfold linesOf
  split
  · exact nofun
  · exact h

theorem lines_text (s : Source) :
    Text.lines s.text = linesOf s.prepend ++ (Text.lines s.code ++ linesOf s.postpend) := by
  have hparts : s.parts ≠ [] := by simp [parts]
  rw [text, Text.lines_joinLines hparts, parts]
  unfold linesOf
  split <;> split <;> simp

/-- A program in a quiet scaffold is that of its code, with blank lines around it. -/
theorem read_text {s : Source} (h : s.Quiet) : Program.read s.text =
    ((Program.read s.code).mapError (· + s.prependLines)).map fun ls =>
      List.replicate s.prependLines .blank ++
        (ls ++ List.replicate (linesOf s.postpend).length .blank) := by
  rw [Program.read, lines_text, readLines_idle_append (isIdle_of_mem_linesOf h.prepend),
    readLines_append_idle (isIdle_of_mem_linesOf h.postpend), readLines_add,
    length_linesOf_prepend, Program.read]
  cases readLines 1 (Text.lines s.code) <;> rfl

/-! ### Numbers of lines -/

/-- How the lines of the text that is run are numbered. -/
structure Numbered (s : Source) : Prop where
  lines : Text.lines s.text = linesOf s.prepend ++ (Text.lines s.code ++ linesOf s.postpend)
  offset : s.prependLines = (linesOf s.prepend).length
  code {k : Nat} : 1 ≤ k → k ≤ (Text.lines s.code).length →
    (∃ l, Text.line? s.code k = some l ∧ Text.line? s.text (s.prependLines + k) = some l) ∧
    codeLine (s.prependLines + k : Nat) s.prependLines = k
  /-- What stands before the code counts as its first line. -/
  before {n : Nat} : n ≤ s.prependLines → codeLine n s.prependLines = 1

/-- The text that is run holds the lines of the scaffold around those of the code, and a line of the
code has its own number once the lines before the code are taken off. -/
theorem numbered (s : Source) : s.Numbered where
  lines := lines_text s
  offset := (length_linesOf_prepend s).symm
  code := by
    intro k hfirst hlast
    obtain ⟨n, rfl⟩ := Nat.exists_eq_add_of_le' hfirst
    have hcode : (Text.lines s.code)[n]? = some (Text.lines s.code)[n] := List.getElem?_eq_getElem _
    refine ⟨⟨(Text.lines s.code)[n], hcode, ?_⟩, ?_⟩
    · show (Text.lines s.text)[s.prependLines + n]? = _
      rw [lines_text, ← length_linesOf_prepend, List.getElem?_append_right (Nat.le_add_right _ n),
        Nat.add_sub_cancel_left, List.getElem?_append_left hlast, hcode]
    · rw [codeLine]
      omega
  before := by
    intro n hn
    rw [codeLine]
    omega

/-- A prepend with a newline at its end takes one line more, and empty code takes one as well. -/
theorem numbered_empty :
    let s : Source := { code := "", prepend := "a = 1\n", postpend := "\n" }
    Text.lines s.text = ["a = 1", "", "", "", ""] ∧ s.prependLines = 2 ∧
      Text.line? s.text 3 = some "" ∧ codeLine 3 2 = 1 ∧ codeLine 2 2 = 1 := by
  intro s
  have h := numbered s
  have hoffset : s.prependLines = 2 := by decide
  obtain ⟨⟨l, hcode, htext⟩, hcount⟩ := h.code (k := 1) (by decide) (by decide)
  have hbefore := h.before (n := 2) (by decide)
  have hl : l = "" := Option.some.inj (hcode.symm.trans (by decide))
  rw [hoffset] at htext hcount hbefore
  exact ⟨by rw [h.lines]; decide, hoffset, hl ▸ htext, hcount, hbefore⟩

end Source

namespace Serving

open Program

variable {s : Source}

/-- A program in a quiet scaffold does what its code does, further down. -/
theorem runProgram_text (h : s.Quiet) (m : Machine) :
    runProgram s.text (m.placed (below s.prependLines)) =
      ((runProgram s.code m).1.moved (below s.prependLines).line,
        (runProgram s.code m).2.placed (below s.prependLines)) := by
  unfold runProgram
  have hread := Source.read_text h
  rcases hcode : Program.read s.code with n | ls <;> rw [hcode] at hread
  · have htext : Program.read s.text = .error (n + s.prependLines) := hread
    have hline := below_line (le_of_readLines hcode) s.prependLines
    rw [htext, ← hline]
    rfl
  · have htext : Program.read s.text = .ok (List.replicate s.prependLines .blank ++
        (ls ++ List.replicate (Source.linesOf s.postpend).length .blank)) := hread
    rw [htext]
    dsimp only
    rw [runLines_blanks_append, runLines_append_blanks]
    obtain ⟨hending, hmachine⟩ := ending_placed (within_below s.prependLines _)
      (n := 1 + s.prependLines) (fun i _ => by rw [below_line (by omega)]; omega)
      (allowed_below s.prependLines m.names)
    exact Prod.ext hending hmachine

theorem attempt_text (h : s.Quiet) (seed : Option Int) (r : RunRequest) :
    attempt seed { r with code := s.text } =
      ((attempt seed { r with code := s.code }).1.moved (below s.prependLines).line,
        (attempt seed { r with code := s.code }).2.placed (below s.prependLines)) :=
  runProgram_text h (machine .initial (.ofMode r.inputs r.mode r.echoInputs) seed)

theorem load_text (h : s.Quiet) (seed : Option Int) :
    load seed { code := s.text } =
      ((load seed { code := s.code }).1.moved (below s.prependLines).line,
        (load seed { code := s.code }).2.placed (below s.prependLines)) :=
  runProgram_text h (machine .initial .closed seed)

/-- A function further down does the same. -/
theorem call_moved (k : Nat) (names : Names) (seed : Option Int) (r : CallRequest) :
    call (names.moved (below k).line) seed r =
      (call names seed r).map fun e => (e.1.moved (below k).line, e.2.placed (below k)) := by
  unfold call
  have hglobals : (names.moved (below k).line).globals = names.globals := rfl
  rw [hglobals]
  split
  · rename_i name index hlookup
    have hcall := ((Placed.congruence (below k)).callValue
      (fun f args hw => (Placed.congruence (below k)).callFunction maxDepth f args hw)
      (.function name index) (r.args.map Value.ofJson)).comes (machine names .closed seed)
      (allowed_below k names)
    have hmachine : machine (names.moved (below k).line) .closed seed =
        (machine names .closed seed).placed (below k) := rfl
    rw [hmachine, hcall, Option.map_some]
    exact congrArg some (Prod.ext (Ending.of_moved _ _ _) rfl)
  · rfl

end Serving

end Rerun
