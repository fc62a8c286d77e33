import Rerun.Text.Numeral
import Rerun.Text.Lines

/-!
Arguments of a command: parameters by name, and operands by place. The name of a parameter may be
cut short as long as it stays clear which one is meant, and parameters of one letter may be joined.
-/

namespace Rerun

namespace Arguments

/-- What a parameter takes. -/
inductive Kind where
  | flag
  | text
  | whole
  /-- Asks for help and ends the reading. -/
  | help
  deriving DecidableEq

structure Parameter where
  names : List String
  kind : Kind
  required : Bool := false

def Parameter.takesValue (p : Parameter) : Bool := p.kind = .text || p.kind = .whole

def Parameter.key (p : Parameter) : String := p.names.getLast?.getD ""

structure Grammar where
  parameters : List Parameter
  operands : Nat
  /-- The first operand is a command, which takes all that follows. -/
  commands : Bool := false

inductive Refusal where
  | help
  | wrong
  deriving DecidableEq

/-- What was given. -/
structure Given where
  flags : List String := []
  texts : List (String × String) := []
  wholes : List (String × Int) := []
  operands : List String := []
  /-- What follows a command. -/
  rest : List String := []
  /-- Something was given that has no place. -/
  surplus : Bool := false

namespace Given

def text (g : Given) (key usual : String) : String := (g.texts.lookup key).getD usual

def whole (g : Given) (key : String) (usual : Int) : Int := (g.wholes.lookup key).getD usual

def flag (g : Given) (key : String) : Bool := g.flags.contains key

end Given

def helpParameter : Parameter := ⟨["-h", "--help"], .help, false⟩

def Grammar.all (g : Grammar) : List Parameter := helpParameter :: g.parameters

def Grammar.find? (g : Grammar) (name : String) : Option Parameter :=
  g.all.find? (·.names.contains name)

/-- A value that is written in the same argument as its parameter, and whether an equals sign stands
before it. -/
structure Attached where
  sign : Bool
  text : List Char

inductive Token where
  | operand (text : String)
  | parameter (name : String) (p : Parameter) (attached : Option Attached)
  | unknown
  | separator

/-! ### Tokens -/

/-- The part before the first equals sign, and the part after it. -/
def splitSign (arg : String) : String × Option (List Char) :=
  let cs := arg.toList
  match cs.dropWhile (· ≠ '=') with
  | _ :: after => (String.ofList (cs.takeWhile (· ≠ '=')), some after)
  | [] => (arg, none)

def longMatches (g : Grammar) (arg : String) : List Token :=
  let (part, after) := splitSign arg
  g.all.flatMap fun p => (p.names.filter fun n => part.toList.isPrefixOf n.toList).map fun n =>
    .parameter n p (after.map (⟨true, ·⟩))

def shortMatches (g : Grammar) (arg : String) : List Token :=
  let short := String.ofList (arg.toList.take 2)
  g.all.flatMap fun p => (p.names.filter (· = short)).map fun n =>
    .parameter n p (some ⟨false, arg.toList.drop 2⟩)

def isNegativeNumber (arg : String) : Bool :=
  match arg.toList with
  | '-' :: cs =>
    let whole := cs.takeWhile Text.isDigit
    let ends (rest : List Char) : Bool := rest = [] || rest = ['\n']
    match cs.dropWhile Text.isDigit with
    | '.' :: more => (more.head?.map Text.isDigit).getD false && ends (more.dropWhile Text.isDigit)
    | rest => !whole.isEmpty && ends rest
  | _ => false

def unnamed (arg : String) : Token :=
  if isNegativeNumber arg || arg.toList.contains ' ' then .operand arg else .unknown

/-- What an argument is; it is wrong when it could mean several parameters. -/
def token (g : Grammar) (arg : String) : Except Refusal Token :=
  match arg.toList with
  | '-' :: second :: _ =>
    match g.find? arg, splitSign arg with
    | some p, _ => .ok (.parameter arg p none)
    | none, (name, after) =>
      match after.bind fun text => (g.find? name).map fun p => (p, text) with
      | some (p, text) => .ok (.parameter name p (some ⟨true, text⟩))
      | none =>
        match if second = '-' then longMatches g arg else shortMatches g arg with
        | [] => .ok (unnamed arg)
        | [t] => .ok t
        | _ => .error .wrong
  | _ => .ok (.operand arg)

/-- All arguments; after a separator everything is an operand. -/
def tokens (g : Grammar) : List String → Except Refusal (List (String × Token))
  | [] => .ok []
  | arg :: args =>
    if arg = "--" then .ok ((arg, .separator) :: args.map fun a => (a, .operand a))
    else do
      let t ← token g arg
      let ts ← tokens g args
      .ok ((arg, t) :: ts)

/-! ### Reading -/

/-- Takes a parameter with its value. -/
def take (p : Parameter) (value : String) (g : Given) : Except Refusal Given :=
  match p.kind with
  | .help => .error .help
  | .flag => .ok { g with flags := p.key :: g.flags }
  | .text => .ok { g with texts := (p.key, value) :: g.texts }
  | .whole =>
    match Text.readInt value with
    | .ok n => .ok { g with wholes := (p.key, n) :: g.wholes }
    | .error _ => .error .wrong

structure Joined where
  /-- Those that are complete, with their values. -/
  complete : List (Parameter × String) := []
  /-- One that still needs what follows. -/
  pending : Option Parameter := none
  surplus : Bool := false

def Joined.last (done : List (Parameter × String)) (p : Parameter) : Joined :=
  if p.takesValue then { complete := done, pending := some p }
  else { complete := done ++ [(p, "")] }

/-- Splits joined parameters; `cs` is what is attached to the last one. -/
def split (g : Grammar) (done : List (Parameter × String)) (name : String) (p : Parameter)
    (sign : Bool) : List Char → Except Refusal Joined
  | [] =>
    if p.takesValue then .ok { complete := done ++ [(p, "")] } else .error .wrong
  | c :: cs =>
    if p.takesValue then .ok { complete := done ++ [(p, String.ofList (c :: cs))] }
    else if "--".toList.isPrefixOf name.toList || sign || c = '-' then .error .wrong
    else
      let done := done ++ [(p, "")]
      let next := String.ofList ['-', c]
      match g.find? next, cs with
      | none, _ => .ok { complete := done, surplus := true }
      | some q, [] => .ok (.last done q)
      | some q, '=' :: after => split g done next q true after
      | some q, d :: more => split g done next q false (d :: more)

def joined (g : Grammar) (name : String) (p : Parameter) : Option Attached → Except Refusal Joined
  | none => .ok (.last [] p)
  | some a => split g [] name p a.sign a.text

def takeAll (ps : List (Parameter × String)) (g : Given) : Except Refusal Given :=
  ps.foldlM (fun g p => take p.1 p.2 g) g

/-- Reads tokens. `placed` tells whether the token before was an operand that has found its
place. -/
def scan (g : Grammar) (placed : Bool) (given : Given) :
    List (String × Token) → Except Refusal Given
  | [] => .ok given
  | (_, .unknown) :: ts => scan g false { given with surplus := true } ts
  | (_, .operand text) :: ts =>
    if given.operands.length < g.operands then
      let given := { given with operands := given.operands ++ [text] }
      if g.commands then .ok { given with rest := ts.map (·.1) }
      else scan g true given ts
    else scan g false { given with surplus := true } ts
  | (_, .separator) :: ts =>
    if g.commands then .error .wrong
    else
      let needed := placed || (!ts.isEmpty && given.operands.length < g.operands)
      scan g placed { given with surplus := given.surplus || !needed } ts
  | (_, .parameter name p attached) :: ts => do
    let j ← joined g name p attached
    let given := { given with surplus := given.surplus || j.surplus }
    match j.pending, ts with
    | none, ts => scan g false (← takeAll j.complete given) ts
    | some q, (_, .operand text) :: ts =>
      scan g false (← takeAll (j.complete ++ [(q, text)]) given) ts
    | some _, _ => .error .wrong

def complete (g : Grammar) (given : Given) : Bool :=
  given.operands.length = g.operands && g.parameters.all fun p =>
    !p.required || (given.texts.lookup p.key).isSome || (given.wholes.lookup p.key).isSome

/-- Reads arguments. What has no place is only noted, since arguments can be wrong in ways that come
before it. -/
def read (g : Grammar) (args : List String) : Except Refusal Given := do
  let ts ← tokens g args
  let given ← scan g false {} ts
  if complete g given then .ok given else .error .wrong

end Arguments

end Rerun
