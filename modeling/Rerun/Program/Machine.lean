import Rerun.Feed
import Rerun.Program.Syntax
import Rerun.Program.Exceptions

/-!
The state in which a program runs and the ways in which it can stop. What the program has shown is
kept as pieces, so that values shown because they were read can be told from what the program wrote
itself.
-/

namespace Rerun.Program

/-- A piece of what an attempt has shown. -/
inductive Piece where
  | written (text : String)
  | echoed (value : String)
  deriving DecidableEq

def Piece.text : Piece → String
  | .written s => s
  | .echoed v => v ++ "\n"

def transcript (ps : List Piece) : String := String.join (ps.map Piece.text)

/-- A read that found no value left, and stopped for one. -/
structure Demand where
  /-- It was made with a prompt, so that its value is shown when it comes. -/
  prompted : Bool
  prompt : String
  deriving DecidableEq

/-- What belongs to one call, or to one line outside functions: the line that errors name, the
names that are local, and their values. -/
structure Frame where
  line : Nat
  localNames : List String
  locals : List (String × Value)

/-- The names a program has given values to, and the functions it has defined. -/
structure Names where
  globals : List (String × Value)
  functions : List Function

def Names.initial : Names := ⟨[("__name__", .str "__main__")], []⟩

structure Machine where
  names : Names
  feed : Feed
  shown : List Piece := []
  errors : String := ""
  /-- The reads that have stopped for a value, in order; a handler may have gone on after one. -/
  demands : List Demand := []
  /-- Milliseconds that have passed. -/
  elapsed : Nat := 0
  seed : Option Int
  frame : Frame := ⟨0, [], []⟩

/-- Why a computation stops before its end. -/
inductive Stop where
  | raised (e : Exn)
  /-- A read has found no value left; the program is to be run again when there is one. -/
  | requested (prompt : String)
  | hung
  | crashed

/-- Whether a handler for a class of exceptions takes over. -/
def Stop.caughtBy (cls : String) : Stop → Bool
  | .raised e => isBelow e.cls cls
  | .requested _ => cls = "BaseException"
  | .hung | .crashed => false

/-- A computation of a program: it changes the machine, also when it stops. -/
def Run (α : Type) : Type := Machine → Except Stop α × Machine

namespace Run

instance : Monad Run where
  pure a := fun m => (.ok a, m)
  bind x f := fun m =>
    match x m with
    | (.ok a, m) => f a m
    | (.error s, m) => (.error s, m)

@[simp] theorem pure_apply {α : Type} (a : α) (m : Machine) :
    (pure a : Run α) m = (.ok a, m) := rfl

theorem bind_apply {α β : Type} (x : Run α) (f : α → Run β) (m : Machine) :
    (x >>= f) m = match x m with
      | (.ok a, m) => f a m
      | (.error s, m) => (.error s, m) := rfl

def stop {α : Type} (s : Stop) : Run α := fun m => (.error s, m)

def throwNew {α : Type} (cls : String) (args : List Value) : Run α := fun m =>
  (.error (.raised ⟨classOfNew cls args, args, m.frame.line⟩), m)

def fail {α : Type} (cls message : String) : Run α := throwNew cls [.str message]

def change (f : Machine → Machine) : Run Unit := fun m => (.ok (), f m)

def emit (text : String) : Run Unit :=
  change fun m => { m with shown := m.shown ++ [.written text] }

def emitError (text : String) : Run Unit :=
  change fun m => { m with errors := m.errors ++ text }

/-- Runs `other` when `body` stops with what the class catches. -/
def handle {α : Type} (body : Run α) (cls : String) (other : Run α) : Run α := fun m =>
  match body m with
  | (.ok a, m) => (.ok a, m)
  | (.error s, m) => if s.caughtBy cls then other m else (.error s, m)

def inFrame {α : Type} (frame : Frame) (x : Run α) : Run α := fun m =>
  let r := x { m with frame }
  (r.1, { r.2 with frame := m.frame })

/-- Takes the outcome of a read over: a read that finds no value either stops the attempt or raises
the error of an ended input. -/
def ofRead {α : Type} (prompted : Bool) (read : Feed → Except Dry α × Feed) : Run α := fun m =>
  match read m.feed with
  | (.ok a, feed) => (.ok a, { m with feed })
  | (.error (.requested prompt), feed) =>
    (.error (.requested prompt), { m with feed, demands := m.demands ++ [⟨prompted, prompt⟩] })
  | (.error .ended, feed) => fail "EOFError" Feed.endMessage { m with feed }

/-- Shows a value that was read, if such values are shown. -/
def showRead (value : String) : Run Unit :=
  change fun m => if m.feed.echo then { m with shown := m.shown ++ [.echoed value] } else m

/-- Shows a prompt and reads a value. -/
def ask (prompt : String) : Run String := do
  if prompt ≠ "" then emit prompt
  let value ← ofRead true (·.ask prompt)
  showRead value
  pure value

end Run

end Rerun.Program
