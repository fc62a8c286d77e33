import Rerun.Json.Basic
import Rerun.Text.Bytes
import Rerun.Text.Numeral

/-!
Reading JSON text. A fault is given by what was expected and by how many characters were left there,
from which `read` computes its offset. Beside the standard's grammar, `NaN`, `Infinity` and
`-Infinity` are numbers.
-/

namespace Rerun.Json

/-- What makes a text no JSON. -/
inductive Expected where
  | value
  | fieldName
  | colon
  | comma
  | stringEnd
  | noControl
  | escape
  | codeUnit
  | textEnd
  deriving DecidableEq

/-- A fault and its offset in the text, or how many characters are left at it. -/
structure Fault where
  expected : Expected
  place : Nat
  deriving DecidableEq

def skipBlanks (cs : List Char) : List Char :=
  cs.dropWhile fun c => c = ' ' || c = '\t' || c = '\n' || c = '\r'

def simpleEscape? : Char → Option Char
  | '"' => some '"'
  | '\\' => some '\\'
  | '/' => some '/'
  | 'b' => some '\x08'
  | 'f' => some '\x0c'
  | 'n' => some '\n'
  | 'r' => some '\r'
  | 't' => some '\t'
  | _ => none

/-- The code unit of four hexadecimal digits at the start of a text. -/
def codeUnit? : List Char → Option (Nat × List Char)
  | a :: b :: c :: d :: rest => do
    let a ← Text.hexValue? a
    let b ← Text.hexValue? b
    let c ← Text.hexValue? c
    let d ← Text.hexValue? d
    some (((a * 16 + b) * 16 + c) * 16 + d, rest)
  | _ => none

/-- A code unit that is half of a pair, without its other half, stands for no character. -/
def charOfUnit (n : Nat) : Char :=
  if 0xd800 ≤ n ∧ n < 0xe000 then Text.replacementChar else Char.ofNat n

/-- The character of a code unit that has been read, joined with the second half of a pair when one
follows. -/
def charAfterUnit (unit : Nat) (rest : List Char) : Char × List Char :=
  match rest with
  | '\\' :: 'u' :: more =>
    if 0xd800 ≤ unit ∧ unit < 0xdc00 then
      match codeUnit? more with
      | some (low, after) =>
        if 0xdc00 ≤ low ∧ low < 0xe000 then
          (Char.ofNat (0x10000 + (unit - 0xd800) * 1024 + (low - 0xdc00)), after)
        else (charOfUnit unit, rest)
      | none => (charOfUnit unit, rest)
    else (charOfUnit unit, rest)
  | _ => (charOfUnit unit, rest)

/-- The rest of a string after its opening quote; `start` is what was left at that quote. -/
def stringBody (start : Nat) :
    (fuel : Nat) → (done cs : List Char) → Except Fault (String × List Char)
  | 0, _, _ => .error ⟨.stringEnd, start⟩
  | _ + 1, _, [] => .error ⟨.stringEnd, start⟩
  | fuel + 1, done, c :: cs =>
    if c = '"' then .ok (String.ofList done.reverse, cs)
    else if c = '\\' then
      match cs with
      | [] => .error ⟨.stringEnd, start⟩
      | 'u' :: more =>
        match codeUnit? more with
        | some (unit, rest) =>
          if rest.isEmpty then .error ⟨.codeUnit, more.length + 1⟩
          else
            let (ch, rest) := charAfterUnit unit rest
            stringBody start fuel (ch :: done) rest
        | none => .error ⟨.codeUnit, more.length + 1⟩
      | e :: more =>
        match simpleEscape? e with
        | some ch => stringBody start fuel (ch :: done) more
        | none => .error ⟨.escape, more.length + 2⟩
    else if c.toNat < 32 then .error ⟨.noControl, cs.length + 1⟩
    else stringBody start fuel (c :: done) cs

def isAsciiDigit (c : Char) : Bool := '0' ≤ c && c ≤ '9'

def asciiValue (ds : List Char) : Nat :=
  Text.valueOfDigits (ds.map fun d => d.toNat - 48)

/-- The fraction part at the start of a text: its digits, if there are any, and the text after
them. -/
def fractionPart : List Char → List Char × List Char
  | '.' :: d :: cs =>
    if isAsciiDigit d then ((d :: cs).takeWhile isAsciiDigit, (d :: cs).dropWhile isAsciiDigit)
    else ([], '.' :: d :: cs)
  | cs => ([], cs)

/-- The exponent part at the start of a text, if it has digits. -/
def exponentPart (cs : List Char) : Option Int × List Char :=
  match cs with
  | c :: more =>
    if c = 'e' || c = 'E' then
      let (negative, digits) := Text.signOf more
      let ds := digits.takeWhile isAsciiDigit
      if ds.isEmpty then (none, cs)
      else
        let n : Int := asciiValue ds
        (some (if negative then -n else n), digits.dropWhile isAsciiDigit)
    else (none, cs)
  | [] => (none, cs)

/-- A number whose sign has been read; `start` is what was left at its first character. -/
def number (start : Nat) (negative : Bool) (cs : List Char) :
    Except Fault (Json × List Char) :=
  match cs with
  | [] => .error ⟨.value, start⟩
  | d :: more =>
    if !isAsciiDigit d then .error ⟨.value, start⟩
    else
      let whole := if d = '0' then [d] else cs.takeWhile isAsciiDigit
      let rest := if d = '0' then more else cs.dropWhile isAsciiDigit
      let (fraction, rest) := fractionPart rest
      let (exponent, rest) := exponentPart rest
      let n := asciiValue (whole ++ fraction)
      if fraction.isEmpty && exponent.isNone then
        .ok (.int (if negative then -(n : Int) else n), rest)
      else .ok (.float (.ofDecimal negative n (exponent.getD 0 - fraction.length)), rest)

mutual

/-- One value. -/
def value (fuel : Nat) (cs : List Char) : Except Fault (Json × List Char) :=
  match fuel with
  | 0 => .error ⟨.value, cs.length⟩
  | fuel + 1 =>
    match cs with
    | '"' :: more => do
      let (s, rest) ← stringBody cs.length (more.length + 1) [] more
      .ok (.str s, rest)
    | '\x7b' :: more =>
      match skipBlanks more with
      | '\x7d' :: rest => .ok (.obj [], rest)
      | rest => fields fuel [] rest
    | '[' :: more =>
      match skipBlanks more with
      | ']' :: rest => .ok (.arr [], rest)
      | rest => elements fuel [] rest
    | 'n' :: 'u' :: 'l' :: 'l' :: rest => .ok (.null, rest)
    | 't' :: 'r' :: 'u' :: 'e' :: rest => .ok (.bool true, rest)
    | 'f' :: 'a' :: 'l' :: 's' :: 'e' :: rest => .ok (.bool false, rest)
    | 'N' :: 'a' :: 'N' :: rest => .ok (.float .nan, rest)
    | 'I' :: 'n' :: 'f' :: 'i' :: 'n' :: 'i' :: 't' :: 'y' :: rest =>
      .ok (.float (.infinite false), rest)
    | '-' :: 'I' :: 'n' :: 'f' :: 'i' :: 'n' :: 'i' :: 't' :: 'y' :: rest =>
      .ok (.float (.infinite true), rest)
    | '-' :: rest => number cs.length true rest
    | cs => number cs.length false cs

/-- The elements of an array up to its closing bracket. -/
def elements (fuel : Nat) (done : List Json) (cs : List Char) : Except Fault (Json × List Char) :=
  match fuel with
  | 0 => .error ⟨.value, cs.length⟩
  | fuel + 1 => do
    let (j, rest) ← value fuel cs
    match skipBlanks rest with
    | ']' :: rest => .ok (.arr (j :: done).reverse, rest)
    | ',' :: rest => elements fuel (j :: done) (skipBlanks rest)
    | rest => .error ⟨.comma, rest.length⟩

/-- The fields of an object up to its closing brace. -/
def fields (fuel : Nat) (done : List (String × Json)) (cs : List Char) :
    Except Fault (Json × List Char) :=
  match fuel with
  | 0 => .error ⟨.value, cs.length⟩
  | fuel + 1 =>
    match cs with
    | '"' :: more => do
      let (name, rest) ← stringBody cs.length (more.length + 1) [] more
      match skipBlanks rest with
      | ':' :: rest => do
        let (j, rest) ← value fuel (skipBlanks rest)
        match skipBlanks rest with
        | '\x7d' :: rest => .ok (.ofFields (done ++ [(name, j)]), rest)
        | ',' :: rest => fields fuel (done ++ [(name, j)]) (skipBlanks rest)
        | rest => .error ⟨.comma, rest.length⟩
      | rest => .error ⟨.colon, rest.length⟩
    | cs => .error ⟨.fieldName, cs.length⟩

end

/-- Reads a text that holds one value; a fault gives its offset. -/
def read (s : String) : Except Fault Json :=
  let cs := s.toList
  let result : Except Fault Json := do
    let (j, rest) ← value (2 * cs.length + 2) (skipBlanks cs)
    match skipBlanks rest with
    | [] => .ok j
    | rest => .error ⟨.textEnd, rest.length⟩
  match result with
  | .ok j => .ok j
  | .error fault => .error { fault with place := cs.length - fault.place }

def read? (s : String) : Option Json := (read s).toOption

def withoutMark (s : String) : String :=
  match s.toList with
  | '\ufeff' :: cs => String.ofList cs
  | _ => s

def readBody (s : String) : Except Fault Json := read (withoutMark s)

def Expected.message : Expected → String
  | .value => "Expecting value"
  | .fieldName => "Expecting property name enclosed in double quotes"
  | .colon => "Expecting ':' delimiter"
  | .comma => "Expecting ',' delimiter"
  | .stringEnd => "Unterminated string starting at"
  | .noControl => "Invalid control character at"
  | .escape => "Invalid \\escape"
  | .codeUnit => "Invalid \\uXXXX escape"
  | .textEnd => "Extra data"

/-- A fault in words, with its line, its column and its offset. -/
def faultMessage (s : String) (f : Fault) : String :=
  let before := (withoutMark s).toList.take f.place
  let line := before.count '\n' + 1
  let column := (before.reverse.takeWhile (· ≠ '\n')).length + 1
  f.expected.message ++ ": line " ++ Text.decimal line ++ " column " ++ Text.decimal column ++
    " (char " ++ Text.decimal f.place ++ ")"

end Rerun.Json
