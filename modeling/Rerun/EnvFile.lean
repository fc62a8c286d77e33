import Rerun.Assoc
import Rerun.Text.Blank
import Rerun.Text.Lines

/-!
Environment files: lines that bind names to values. A value may be quoted, and may refer to other
names; a line that cannot be read is passed over up to its end.
-/

namespace Rerun.EnvFile

open Text

/-! ### Reading bindings -/

def isBreak (c : Char) : Bool := c = '\n' || c = '\r'

def isInlineBlank (c : Char) : Bool := isBlank c && !isBreak c

def skipInline (cs : List Char) : List Char := cs.dropWhile isInlineBlank

def skipExport (cs : List Char) : List Char :=
  match cs with
  | 'e' :: 'x' :: 'p' :: 'o' :: 'r' :: 't' :: c :: rest =>
    if isInlineBlank c then skipInline rest else cs
  | _ => cs

/-- A name and the text after it; no name at a comment. -/
def name : List Char → Except (List Char) (Option (List Char) × List Char)
  | '#' :: cs => .ok (none, '#' :: cs)
  | '\'' :: cs =>
    match cs.takeWhile (· ≠ '\''), cs.dropWhile (· ≠ '\'') with
    | c :: inside, '\'' :: rest => .ok (some (c :: inside), rest)
    | _, _ => .error ('\'' :: cs)
  | cs =>
    let isNameChar (c : Char) : Bool := c ≠ '=' && c ≠ '#' && !isBlank c
    match cs.takeWhile isNameChar with
    | [] => .error cs
    | found => .ok (some found, cs.dropWhile isNameChar)

/-- The text up to a closing quote, and the text after it. A quote after a backslash closes only
when no other one does. -/
def upToQuote (quote : Char) : List Char → Option (List Char × List Char)
  | [] => none
  | '\\' :: c :: cs =>
    if c = quote then
      match upToQuote quote cs with
      | some (inside, rest) => some ('\\' :: c :: inside, rest)
      | none => some (['\\'], cs)
    else (upToQuote quote (c :: cs)).map fun r => ('\\' :: r.1, r.2)
  | c :: cs =>
    if c = quote then some ([], cs)
    else (upToQuote quote cs).map fun r => (c :: r.1, r.2)

def plainEscape? : Char → Option Char
  | '\\' => some '\\'
  | '\'' => some '\''
  | _ => none

def fullEscape? : Char → Option Char
  | '\\' => some '\\'
  | '\'' => some '\''
  | '"' => some '"'
  | 'a' => some '\x07'
  | 'b' => some '\x08'
  | 'f' => some '\x0c'
  | 'n' => some '\n'
  | 'r' => some '\r'
  | 't' => some '\t'
  | 'v' => some '\x0b'
  | _ => none

/-- Resolves the escapes that a quoted value knows; others stay. -/
def unescape (escape? : Char → Option Char) : List Char → List Char
  | [] => []
  | '\\' :: c :: cs =>
    match escape? c with
    | some d => d :: unescape escape? cs
    | none => '\\' :: unescape escape? (c :: cs)
  | c :: cs => c :: unescape escape? cs

/-- A value without the comment at its end, which begins with a blank. -/
def dropComment : List Char → List Char
  | [] => []
  | c :: cs =>
    if isBlank c && (cs.dropWhile isBlank).head? = some '#' then [] else c :: dropComment cs

/-- A value and the text after it. -/
def value : List Char → Except (List Char) (List Char × List Char)
  | '\'' :: cs =>
    match upToQuote '\'' cs with
    | some (inside, rest) => .ok (unescape plainEscape? inside, rest)
    | none => .error ('\'' :: cs)
  | '"' :: cs =>
    match upToQuote '"' cs with
    | some (inside, rest) => .ok (unescape fullEscape? inside, rest)
    | none => .error ('"' :: cs)
  | cs =>
    .ok (dropEndWhile isBlank (dropComment (cs.takeWhile (!isBreak ·))), cs.dropWhile (!isBreak ·))

/-- The value that is bound, if there is an equals sign, and the text after it. -/
def boundValue (cs : List Char) : Except (List Char) (Option (List Char) × List Char) :=
  match cs with
  | '=' :: rest => do
    let (v, rest) ← value (skipInline rest)
    .ok (some v, rest)
  | _ => .ok (none, cs)

/-- What stands after the end of a line, after at most a comment. -/
def lineEnd (cs : List Char) : Except (List Char) (List Char) :=
  let blanks := skipInline cs
  let rest := if blanks.head? = some '#' then blanks.dropWhile (!isBreak ·) else cs
  match skipInline rest with
  | [] => .ok []
  | '\r' :: '\n' :: after => .ok after
  | c :: after => if isBreak c then .ok after else .error rest

/-- A line: what it binds, if anything, and the text after it. -/
def line (cs : List Char) : Except (List Char) (Option (String × Option String) × List Char) := do
  let (found, rest) ← name (skipExport cs)
  let (bound, rest) ← boundValue (skipInline rest)
  let rest ← lineEnd rest
  .ok (found.map fun n => (String.ofList n, bound.map String.ofList), rest)

/-- The text after the line in which the reading of a line has failed. -/
def nextLine (cs : List Char) : List Char := (cs.dropWhile (!isBreak ·)).drop 1

def lines : (fuel : Nat) → List Char → List (String × Option String)
  | 0, _ => []
  | fuel + 1, cs =>
    match cs.dropWhile isBlank with
    | [] => []
    | cs =>
      match line cs with
      | .ok (some b, rest) => b :: lines fuel rest
      | .ok (none, rest) => lines fuel rest
      | .error rest => lines fuel (nextLine rest)

/-- The bindings of a file, in order; a name without an equals sign is bound to nothing. -/
def bindings (text : String) : List (String × Option String) :=
  let cs := (foldNewlines text).toList
  lines (cs.length + 1) cs

/-! ### References -/

/-- A reference to a name at the start of a text: the name, what stands for it when it is unknown,
and the text after it. -/
def reference? : List Char → Option (String × String × List Char)
  | '$' :: '\x7b' :: cs =>
    let isNameChar (c : Char) : Bool := c ≠ '\x7d' && c ≠ ':'
    let name := String.ofList (cs.takeWhile isNameChar)
    match cs.dropWhile isNameChar with
    | '\x7d' :: rest => some (name, "", rest)
    | ':' :: '-' :: more =>
      match more.dropWhile (· ≠ '\x7d') with
      | _ :: rest => some (name, String.ofList (more.takeWhile (· ≠ '\x7d')), rest)
      | [] => none
    | _ => none
  | _ => none

/-- Replaces the references in a text; `find?` gives what a name is bound to, which may be
nothing. -/
def expandChars (find? : String → Option (Option String)) :
    (fuel : Nat) → List Char → List Char
  | 0, cs => cs
  | _ + 1, [] => []
  | fuel + 1, c :: cs =>
    match reference? (c :: cs) with
    | some (name, fallback, rest) =>
      (((find? name).getD (some fallback)).getD "").toList ++ expandChars find? fuel rest
    | none => c :: expandChars find? fuel cs

def referencesIn : List Char → List String
  | [] => []
  | c :: cs =>
    match reference? (c :: cs) with
    | some (name, _, _) => name :: referencesIn cs
    | none => referencesIn cs

def expand (find? : String → Option (Option String)) (text : String) : String :=
  String.ofList (expandChars find? text.toList.length text.toList)

/-- Which binding of a name counts for a reference. -/
inductive Precedence where
  | file
  | environment
  deriving DecidableEq

/-- What a name is bound to, by the lines read so far and by the environment. -/
def lookup (p : Precedence) (env : List (String × String)) (done : List (String × Option String))
    (name : String) : Option (Option String) :=
  let outer := (env.lookup name).map some
  match p with
  | .file => (done.lookup name).or outer
  | .environment => outer.or (done.lookup name)

/-- The bindings of a file with their references replaced. The last binding of a name counts, and
it takes the place of the first. -/
def read (p : Precedence) (env : List (String × String)) (text : String) :
    List (String × Option String) :=
  (bindings text).foldl (fun done b =>
    Assoc.put done b.1 (b.2.map (expand (lookup p env done)))) []

def values (p : Precedence) (env : List (String × String)) (text : String) :
    List (String × String) :=
  (read p env text).filterMap fun b => b.2.map fun v => (b.1, v)

end Rerun.EnvFile
