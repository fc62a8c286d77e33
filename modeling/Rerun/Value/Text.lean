import Rerun.Value.Basic
import Rerun.Binary64.Text
import Rerun.Text.Numeral
import Rerun.Text.Quoted

/-!
Values as text: `shown` is the form that stands inside containers and messages, `text` is the same
but leaves a string as it is. Both are meant for values that are writable.
-/

namespace Rerun.Value

def commaSeparated (parts : List String) : String :=
  String.intercalate ", " parts

mutual

/-- A value as it is shown inside containers that are shown as `around` where they come again, the
innermost first; strings are quoted. -/
def shownIn (around : List String) : Value → String
  | .none => "None"
  | .bool b => if b then "True" else "False"
  | .int n => Text.decimal n
  | .float x => x.text
  | .str s => Text.quoted s
  | .bytes bs => Text.quotedBytes bs
  | .list vs => "[" ++ commaSeparated (shownItems ("[...]" :: around) vs) ++ "]"
  | .tuple [v] => "(" ++ shownIn ("(...)" :: around) v ++ ",)"
  | .tuple vs => "(" ++ commaSeparated (shownItems ("(...)" :: around) vs) ++ ")"
  | .set [] => "set()"
  | .set vs => "\x7b" ++ commaSeparated (shownItems ("set(...)" :: around) vs) ++ "\x7d"
  | .dict es => "\x7b" ++ commaSeparated (shownEntries ("\x7b...\x7d" :: around) es) ++ "\x7d"
  | .outer level => around.getD level "..."
  | .function name _ => "<function " ++ name ++ ">"

def shownItems (around : List String) : List Value → List String
  | [] => []
  | v :: vs => shownIn around v :: shownItems around vs

def shownEntries (around : List String) : List (Value × Value) → List String
  | [] => []
  | (k, v) :: es => (shownIn around k ++ ": " ++ shownIn around v) :: shownEntries around es

end

/-- A value as it is shown by itself. -/
def shown (v : Value) : String := shownIn [] v

mutual

/-- Whether a value has a text: no integer that is too long to be written stands in it. -/
def isWritable : Value → Bool
  | .int n => Text.isWritable n
  | .list vs | .tuple vs | .set vs => allWritable vs
  | .dict es => entriesWritable es
  | _ => true

def allWritable : List Value → Bool
  | [] => true
  | v :: vs => isWritable v && allWritable vs

def entriesWritable : List (Value × Value) → Bool
  | [] => true
  | (k, v) :: es => isWritable k && isWritable v && entriesWritable es

end

/-- A value as it is printed. -/
def text : Value → String
  | .str s => s
  | v => v.shown

end Rerun.Value
