import Rerun.Source
import Rerun.Text.Class
import Rerun.Text.Numeral

/-!
Errors of a program as one line: `Line 3: ValueError: bad`. `errorLine` composes such a line from
its parts; `Traceback.reduce` finds the parts in a report that a remote interpreter has printed.
-/

namespace Rerun

def errorHead (type message : String) : String :=
  if message = "" then type else type ++ ": " ++ message

/-- One line for an error, with its line number counted from the first line of the code. -/
def errorLine (type message : String) (line : Option Int) (prependLines : Int) : String :=
  match line with
  | none => errorHead type message
  | some n => "Line " ++ Text.decimal (codeLine n prependLines) ++ ": " ++ errorHead type message

namespace Traceback

/-- Names of the files that hold the program, here and at the remote judge. -/
def programFiles : List String := ["<student>", "<exec>", "script.py"]

/-- A place in a file, as a report names it: `File "f", line 7`. -/
structure Marker where
  file : List Char
  digits : List Char
  /-- How many characters the marker takes. -/
  size : Nat

/-- The marker at the start of a text. -/
def marker? (cs : List Char) : Option Marker :=
  match "File \"".toList.isPrefixOf? cs with
  | none => none
  | some rest =>
    let file := rest.takeWhile (· ≠ '"')
    match "\", line ".toList.isPrefixOf? (rest.dropWhile (· ≠ '"')) with
    | none => none
    | some rest =>
      let digits := rest.takeWhile Text.isDigit
      if file.isEmpty || digits.isEmpty then none
      else some ⟨file, digits, 6 + file.length + 8 + digits.length⟩

/-- The markers of a text from left to right; `skip` characters belong to the last one found. -/
def markersFrom : (skip : Nat) → List Char → List Marker
  | _, [] => []
  | skip + 1, _ :: cs => markersFrom skip cs
  | 0, c :: cs =>
    match marker? (c :: cs) with
    | some m => m :: markersFrom (m.size - 1) cs
    | none => markersFrom 0 cs

def markers (cs : List Char) : List Marker := markersFrom 0 cs

def Marker.inProgram (m : Marker) : Bool :=
  programFiles.any fun f => f.toList.isSuffixOf m.file

/-- The line that a marker names, however many digits that takes. -/
def Marker.line (m : Marker) : Nat := Text.valueOfDigits (m.digits.filterMap Text.digitValue?)

/-- The line of the last marker in the program. -/
def programLine (cs : List Char) : Option Nat :=
  ((markers cs).filter Marker.inProgram).getLast?.map Marker.line

def errorEndings : List String := ["Error", "Exception", "Exit", "Interrupt", "Warning"]

def isNameStart (c : Char) : Bool := c.toNat < 128 && (c.isAlpha || c = '_')

/-- Dotted names that name an error. -/
def isErrorType (cs : List Char) : Bool :=
  match cs with
  | [] => false
  | c :: rest =>
    isNameStart c && rest.all (fun d => Text.isWordChar d || d = '.') &&
      errorEndings.any fun e => e.toList.isSuffixOf rest

def lastComponent (cs : List Char) : List Char :=
  (Text.splitAt '.' cs).getLastD []

/-- Reads a stripped line as an error: the last component of its type, and its message. -/
def finalLine? (cs : List Char) : Option (String × String) :=
  let type := cs.takeWhile (· ≠ ':')
  match cs.dropWhile (· ≠ ':') with
  | [] => none
  | _ :: rest =>
    if isErrorType type then
      let message := match rest with
        | ' ' :: more => more
        | more => more
      some (String.ofList (lastComponent type), String.ofList message)
    else none

/-- Reduces a printed report to one line: the last line that names an error, with the line number
of the last place in the program; or else the last line. -/
def reduce (text : String) (prependLines : Int) : String :=
  if Text.blank text then ""
  else
    let ls := (Text.brokenLinesOf (Text.stripChars text.toList)).map Text.stripChars
    match ls.reverse.findSome? finalLine? with
    | some (type, message) =>
      errorLine type message ((programLine text.toList).map Int.ofNat) prependLines
    | none => String.ofList (ls.getLastD [])

end Traceback

/-- The line of a report, for those who expect of every request that it may fail. -/
def reduceTraceback (text : String) (prependLines : Int) : Except Text.NumeralFault String :=
  .ok (Traceback.reduce text prependLines)

end Rerun
