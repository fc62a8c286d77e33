import Rerun.Program.Syntax
import Rerun.Json.Reader
import Rerun.Text.Lines
import Rerun.Binary64.Text

/-!
Reading programs. A line is blank, a comment, or one statement in JSON; the first line that is none
of these is where the program is malformed.
-/

namespace Rerun.Program

mutual

/-- Reads an expression: a constant, or an object whose field names say what it is. -/
def readExpr? (fuel : Nat) (j : Json) : Option Expr :=
  match fuel with
  | 0 => none
  | fuel + 1 =>
    match j with
    | .null => some (.literal .none)
    | .bool b => some (.literal (.bool b))
    | .int n => some (.literal (.int n))
    | .float x => some (.literal (.float x))
    | .str s => some (.literal (.str s))
    | .arr _ => none
    | .obj [("var", .str name)] => some (.var name)
    | .obj [("input", .arr [])] => some .input
    | .obj [("input", .arr [p])] => (readExpr? fuel p).map .prompt
    | .obj [("readline", _)] => some .readLine
    | .obj [("read", _)] => some .readAll
    | .obj [("cat", .arr js)] => do some (.cat (← readExprs? fuel js))
    | .obj [("int", e)] => do some (.toInt (← readExpr? fuel e))
    | .obj [("add", .arr [a, b])] => do some (.add (← readExpr? fuel a) (← readExpr? fuel b))
    | .obj [("div", .arr [a, b])] => do some (.floorDiv (← readExpr? fuel a) (← readExpr? fuel b))
    | .obj [("call", .arr (.str name :: args))] => do some (.call name (← readExprs? fuel args))
    | .obj [("list", .arr js)] => do some (.list (← readExprs? fuel js))
    | .obj [("tuple", .arr js)] => do some (.tuple (← readExprs? fuel js))
    | .obj [("set", .arr js)] => do some (.set (← readExprs? fuel js))
    | .obj [("dict", .arr entries)] => do some (.dict (← readEntries? fuel entries))
    | .obj [("bytes", .str hex)] => some (.literal (.bytes (Text.bytesOfHex hex)))
    | .obj [("float", .str s)] => do some (.literal (.float (← Binary64.read? s)))
    | .obj [("seed", _)] => some .seed
    | .obj fields => do
      let body ← readField? fuel "try" fields
      let other ← readField? fuel "then" fields
      match fields.lookup "except" with
      | some (.str cls) => if fields.length = 3 then some (.handle body cls other) else none
      | _ => none

def readField? (fuel : Nat) (name : String) (fields : List (String × Json)) : Option Expr :=
  match fuel with
  | 0 => none
  | fuel + 1 =>
    match fields.lookup name with
    | some j => readExpr? fuel j
    | none => none

def readExprs? (fuel : Nat) (js : List Json) : Option (List Expr) :=
  match fuel with
  | 0 => none
  | fuel + 1 =>
    match js with
    | [] => some []
    | j :: js => do some ((← readExpr? fuel j) :: (← readExprs? fuel js))

def readEntries? (fuel : Nat) (entries : List Json) : Option (List Expr) :=
  match fuel with
  | 0 => none
  | fuel + 1 =>
    match entries with
    | [] => some []
    | .arr [k, v] :: rest => do
      let key ← readExpr? fuel k
      let value ← readExpr? fuel v
      some (key :: value :: (← readEntries? fuel rest))
    | _ => none

end

def readNames? (js : List Json) : Option (List String) := js.mapM Json.str?

/-- Reads a statement that may stand anywhere. -/
def readStmt? (fuel : Nat) (j : Json) : Option Stmt :=
  match j with
  | .arr [.str "print", e] => (readExpr? fuel e).map .print
  | .arr [.str "write", e] => (readExpr? fuel e).map .write
  | .arr [.str "err", e] => (readExpr? fuel e).map .writeError
  | .arr [.str "set", .str name, e] => (readExpr? fuel e).map (.assign name)
  | .arr [.str "do", e] => (readExpr? fuel e).map .run
  | .arr (.str "raise" :: .str cls :: args) => (readExprs? fuel args).map (.throwNew cls)
  | .arr [.str "tick", .int ms] => some (.tick ms.toNat)
  | .arr [.str "hang"] => some .hang
  | .arr [.str "crash"] => some .crash
  | _ => none

def readBodyStmt? (fuel : Nat) (j : Json) : Option Stmt :=
  match j with
  | .arr [.str "return", e] => (readExpr? fuel e).map .giveBack
  | .arr [.str "global", .str name] => some (.declareGlobal name)
  | j => readStmt? fuel j

/-- Reads one line. -/
def readLine? (s : String) : Option Line :=
  let s := Text.strip s
  if s = "" || s.toList.head? = some '#' then some .blank
  else do
    let j ← Json.read? s
    let fuel := 2 * s.length + 2
    match j with
    | .arr [.str "def", .str name, .arr params, .arr body] => do
      some (.define name (← readNames? params) (← body.mapM (readBodyStmt? fuel)))
    | j => (readStmt? fuel j).map .stmt

/-- Reads the lines from number `n` on, or gives the number of the first malformed one. -/
def readLines (n : Nat) : List String → Except Nat (List Line)
  | [] => .ok []
  | s :: rest =>
    match readLine? s with
    | none => .error n
    | some l => (readLines (n + 1) rest).map (l :: ·)

/-- Reads a program, or gives the number of its first malformed line. -/
def read (code : String) : Except Nat (List Line) :=
  readLines 1 (Text.lines code)

end Rerun.Program
