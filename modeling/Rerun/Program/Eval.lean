import Rerun.Program.Operators

/-!
Evaluation of programs. Expressions and statements are evaluated by recursion on themselves, given
a way to call functions (`call`); calls in turn are defined by recursion on how deep they may nest
(`callFunction`), and one that would nest deeper raises an exception.
-/

namespace Rerun.Program

/-- Names of a function that its statements set and that are not declared global. -/
def Function.localNames (f : Function) : List String :=
  let set := f.body.filterMap fun
    | .assign name _ => some name
    | _ => none
  let global := f.body.filterMap fun
    | .declareGlobal name => some name
    | _ => none
  f.params ++ set.filter (!global.contains ·)

/-- The value of a name. -/
def lookUp (name : String) : Run Value := fun m =>
  if m.frame.localNames.contains name then
    match m.frame.locals.lookup name with
    | some v => (.ok v, m)
    | none =>
      Run.fail "UnboundLocalError" ("cannot access local variable '" ++ name ++
        "' where it is not associated with a value") m
  else
    match m.names.globals.lookup name with
    | some v => (.ok v, m)
    | none => Run.fail "NameError" ("name '" ++ name ++ "' is not defined") m

def assign (name : String) (value : Value) : Run Unit :=
  Run.change fun m =>
    if m.frame.localNames.contains name then
      { m with frame := { m.frame with locals := Assoc.put m.frame.locals name value } }
    else
      { m with names := { m.names with globals := Assoc.put m.names.globals name value } }

/-- A prompt as text; nothing is no prompt. -/
def promptText : Value → String
  | .none => ""
  | v => v.text

def pairUp : List Value → List (Value × Value)
  | k :: v :: rest => (k, v) :: pairUp rest
  | _ => []

section

variable (call : Function → List Value → Run Value)

def callValue (f : Value) (args : List Value) : Run Value := fun m =>
  match f with
  | .function _ index =>
    match m.names.functions[index]? with
    | some fn => call fn args m
    | none => (.ok .none, m)
  | f => Run.fail "TypeError" ("'" ++ f.typeName ++ "' object is not callable") m

mutual

def evalExpr : Expr → Run Value
  | .literal v => pure v
  | .var name => lookUp name
  | .input => do pure (.str (← Run.ask ""))
  | .prompt text => do
    let v ← evalExpr text
    requireWritable [v]
    pure (.str (← Run.ask (promptText v)))
  | .readLine => do pure (.str (← Run.ofRead false Feed.readLine))
  | .readAll => do pure (.str (← Run.ofRead false Feed.readAll))
  | .cat parts => do
    let vs ← evalExprs parts
    requireWritable vs
    pure (.str (String.join (vs.map Value.text)))
  | .toInt arg => do toInt (← evalExpr arg)
  | .add a b => do
    let x ← evalExpr a
    let y ← evalExpr b
    addValues x y
  | .floorDiv a b => do
    let x ← evalExpr a
    let y ← evalExpr b
    floorDivValues x y
  | .call name args => do
    let f ← lookUp name
    let vs ← evalExprs args
    callValue call f vs
  | .list items => do pure (.list (← evalExprs items))
  | .tuple items => do pure (.tuple (← evalExprs items))
  | .set items => do
    let vs ← evalExprs items
    requireKeys vs
    pure (.ofItems vs)
  | .dict parts => do
    let vs ← evalExprs parts
    let entries := pairUp vs
    requireKeys (entries.map (·.1))
    pure (.ofEntries entries)
  | .handle body cls other => Run.handle (evalExpr body) cls (evalExpr other)
  | .seed => fun m => (.ok (m.seed.elim .none .int), m)

def evalExprs : List Expr → Run (List Value)
  | [] => pure []
  | e :: es => do
    let v ← evalExpr e
    let vs ← evalExprs es
    pure (v :: vs)

end

/-- Runs a statement; one that gives a value back ends its function with it. -/
def execStmt : Stmt → Run (Option Value)
  | .print arg => do
    let v ← evalExpr call arg
    requireWritable [v]
    Run.emit (v.text ++ "\n")
    pure none
  | .write arg => do
    let v ← evalExpr call arg
    requireWritable [v]
    Run.emit v.text
    pure none
  | .writeError arg => do
    let v ← evalExpr call arg
    requireWritable [v]
    Run.emitError v.text
    pure none
  | .assign name e => do
    let v ← evalExpr call e
    assign name v
    pure none
  | .run arg => do
    let _ ← evalExpr call arg
    pure none
  | .throwNew cls args => do
    let vs ← evalExprs call args
    Run.throwNew cls vs
  | .tick ms => do
    Run.change fun m => { m with elapsed := m.elapsed + ms }
    pure none
  | .hang => Run.stop .hung
  | .crash => Run.stop .crashed
  | .giveBack e => do
    let v ← evalExpr call e
    pure (some v)
  | .declareGlobal _ => pure none

def execBody : List Stmt → Run Value
  | [] => pure .none
  | s :: ss => do
    match ← execStmt call s with
    | some v => pure v
    | none => execBody ss

end

/-- Calls a function; `depth` more calls may be open inside it. -/
def callFunction : (depth : Nat) → Function → List Value → Run Value
  | 0, _, _ => Run.fail "RecursionError" "maximum recursion depth exceeded"
  | depth + 1, f, args =>
    Run.inFrame ⟨f.line, f.localNames, f.params.zip args⟩ (execBody (callFunction depth) f.body)

/-- How many calls may be open at one time. -/
def maxDepth : Nat := 960

def define (line : Nat) (name : String) (params : List String) (body : List Stmt) : Run Unit :=
  Run.change fun m =>
    { m with names := {
        globals := Assoc.put m.names.globals name (.function name m.names.functions.length)
        functions := m.names.functions ++ [⟨line, params, body⟩] } }

def runLine (n : Nat) : Line → Run Unit
  | .blank => pure ()
  | .stmt s => Run.inFrame ⟨n, [], []⟩ (do let _ ← execStmt (callFunction maxDepth) s)
  | .define name params body => define n name params body

/-- Runs the lines from number `n` on. -/
def runLines (n : Nat) : List Line → Run Unit
  | [] => pure ()
  | l :: ls => do
    runLine n l
    runLines (n + 1) ls

end Rerun.Program
