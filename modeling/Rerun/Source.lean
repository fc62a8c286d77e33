import Rerun.Text.Lines

/-!
A source unit: the code of a program and the scaffold around it. The scaffold shifts line numbers;
`Source.lineOf` undoes the shift.
-/

namespace Rerun

/-- Code with optional text before and after it. -/
structure Source where
  code : String
  prepend : String := ""
  postpend : String := ""
  deriving DecidableEq, Inhabited

namespace Source

/-- The parts of the unit that take lines: an empty scaffold takes none. -/
def parts (s : Source) : List String :=
  (if s.prepend = "" then [] else [s.prepend]) ++ s.code ::
    (if s.postpend = "" then [] else [s.postpend])

/-- The text that is run. -/
def text (s : Source) : String := Text.joinLines s.parts

/-- How many lines stand before the code. -/
def prependLines (s : Source) : Nat :=
  if s.prepend = "" then 0 else s.prepend.toList.count '\n' + 1

end Source

/-- The line of the code at a line of the text that is run, never below one. -/
def codeLine (line prependLines : Int) : Int := max 1 (line - prependLines)

end Rerun
