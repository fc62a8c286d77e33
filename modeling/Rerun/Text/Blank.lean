/-!
Blank characters, and the two ways in which answers are compared by them: `strip` drops the
blanks around a text, and `words` cuts it at every run of blanks.
-/

namespace Rerun.Text

/-- The characters that count as white space in the Unicode standard, and the four information
separators. -/
def isBlank (c : Char) : Bool :=
  let n := c.toNat
  (9 ≤ n && n ≤ 13) || (28 ≤ n && n ≤ 32) || n == 0x85 || n == 0xa0 || n == 0x1680 ||
  (0x2000 ≤ n && n ≤ 0x200a) || n == 0x2028 || n == 0x2029 || n == 0x202f || n == 0x205f ||
  n == 0x3000

def dropEndWhile (p : Char → Bool) (cs : List Char) : List Char :=
  (cs.reverse.dropWhile p).reverse

def stripChars (cs : List Char) : List Char :=
  dropEndWhile isBlank (cs.dropWhile isBlank)

/-- The text without the blanks around it. -/
def strip (s : String) : String :=
  String.ofList (stripChars s.toList)

def blank (s : String) : Bool :=
  s.toList.all isBlank

def stripEnd (s : String) : String :=
  String.ofList (dropEndWhile isBlank s.toList)

/-- Puts a character in front of the word that is being read. -/
def consWord (c : Char) : List (List Char) → List (List Char)
  | [] => [[c]]
  | w :: ws => (c :: w) :: ws

/-- The pieces between blanks, read from the end: the first piece is the one that touches the
start of the text, and it is empty when the text starts with a blank. -/
def pieces : List Char → List (List Char)
  | [] => [[]]
  | c :: cs => if isBlank c then [] :: pieces cs else consWord c (pieces cs)

/-- The words of a text: what stands between its blanks. -/
def wordsOf (cs : List Char) : List (List Char) :=
  (pieces cs).filter (!·.isEmpty)

def words (s : String) : List String :=
  (wordsOf s.toList).map String.ofList

end Rerun.Text
