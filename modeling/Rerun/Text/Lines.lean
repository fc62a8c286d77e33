import Rerun.Text.Blank

/-!
Lines of a text. A source text and a standard input have their lines between newlines (`lines`);
a report of unknown origin ends its lines at any line separator of the Unicode standard
(`brokenLines`); a text file read back has each of its line ends turned into a newline
(`foldNewlines`).
-/

namespace Rerun.Text

/-- The pieces of a text between the characters equal to `sep`; there is always at least one. -/
def splitAt (sep : Char) : List Char → List (List Char)
  | [] => [[]]
  | c :: cs => if c = sep then [] :: splitAt sep cs else consWord c (splitAt sep cs)

/-- The lines of a text, the last of which may be empty; joined by newlines they give it back. -/
def lines (s : String) : List String :=
  (splitAt '\n' s.toList).map String.ofList

def joinLines (ls : List String) : String :=
  String.intercalate "\n" ls

theorem splitAt_ne_nil (sep : Char) (cs : List Char) : splitAt sep cs ≠ [] := by
  induction cs with
  | nil => simp [splitAt]
  | cons c cs ih =>
      by_cases h : c = sep
      · simp [splitAt, h]
      · cases hs : splitAt sep cs with
        | nil => exact absurd hs ih
        | cons w ws => simp [splitAt, h, hs, consWord]

def isLineEnd (c : Char) : Bool :=
  let n := c.toNat
  (10 ≤ n && n ≤ 13) || (28 ≤ n && n ≤ 30) || n == 0x85 || n == 0x2028 || n == 0x2029

/-- The lines of a text whose lines end at any line separator; a carriage return and a newline
together end one line, and there is no empty line after the last separator. -/
def brokenLinesOf : List Char → List (List Char)
  | [] => []
  | '\r' :: '\n' :: cs => [] :: brokenLinesOf cs
  | c :: cs => if isLineEnd c then [] :: brokenLinesOf cs else consWord c (brokenLinesOf cs)

def brokenLines (s : String) : List String :=
  (brokenLinesOf s.toList).map String.ofList

/-- Every line end of a text file, a carriage return with or without a newline, read as one
newline. -/
def foldNewlinesOf : List Char → List Char
  | [] => []
  | '\r' :: '\n' :: cs => '\n' :: foldNewlinesOf cs
  | c :: cs => (if c = '\r' then '\n' else c) :: foldNewlinesOf cs

def foldNewlines (s : String) : String :=
  String.ofList (foldNewlinesOf s.toList)

end Rerun.Text
