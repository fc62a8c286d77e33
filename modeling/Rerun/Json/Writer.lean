import Rerun.Json.Basic
import Rerun.Binary64.Text
import Rerun.Text.Quoted

/-!
Writing JSON text on one line. Inside a string, quotes, backslashes, control characters and the
line separators beyond ASCII are escaped.
-/

namespace Rerun.Json

def escapeChar (c : Char) : List Char :=
  if c = '"' || c = '\\' then ['\\', c]
  else if c.toNat < 32 || c.toNat = 0x85 || c.toNat = 0x2028 || c.toNat = 0x2029 then
    '\\' :: 'u' :: Text.hexDigits 4 c.toNat
  else [c]

def writeString (s : String) : String :=
  String.ofList ('"' :: s.toList.flatMap escapeChar ++ ['"'])

def writeFloat : Binary64 → String
  | .nan => "NaN"
  | .infinite negative => if negative then "-Infinity" else "Infinity"
  | x => x.text

mutual

def write : Json → String
  | .null => "null"
  | .bool b => if b then "true" else "false"
  | .int n => Text.decimal n
  | .float x => writeFloat x
  | .str s => writeString s
  | .arr js => "[" ++ writeItems js ++ "]"
  | .obj fields => "\x7b" ++ writeFields fields ++ "\x7d"

def writeItems : List Json → String
  | [] => ""
  | [j] => write j
  | j :: js => write j ++ "," ++ writeItems js

def writeFields : List (String × Json) → String
  | [] => ""
  | [(k, j)] => writeString k ++ ":" ++ write j
  | (k, j) :: fields => writeString k ++ ":" ++ write j ++ "," ++ writeFields fields

end

end Rerun.Json
