import Rerun.Value.Basic

/-!
Programs. A program is a list of lines, each of which is blank, one statement, or the definition of
a function whose whole body stands on the line.
-/

namespace Rerun.Program

inductive Expr where
  | literal (value : Value)
  | var (name : String)
  /-- Reads one value. -/
  | input
  /-- Reads one value, after showing a prompt. -/
  | prompt (text : Expr)
  /-- Reads one line of the standard input. -/
  | readLine
  /-- Reads the standard input to its end. -/
  | readAll
  /-- The texts of the parts, one after the other. -/
  | cat (parts : List Expr)
  | toInt (arg : Expr)
  | add (left right : Expr)
  | floorDiv (left right : Expr)
  | call (name : String) (args : List Expr)
  | list (items : List Expr)
  | tuple (items : List Expr)
  | set (items : List Expr)
  /-- The keys and values of a dictionary, in turn. -/
  | dict (parts : List Expr)
  /-- `other` in place of `body` when the body raises an exception of the class. -/
  | handle (body : Expr) (cls : String) (other : Expr)
  /-- The seed that was last applied. -/
  | seed
  deriving Inhabited

inductive Stmt where
  | print (arg : Expr)
  | write (arg : Expr)
  | writeError (arg : Expr)
  | assign (name : String) (value : Expr)
  | run (arg : Expr)
  | throwNew (cls : String) (args : List Expr)
  | tick (ms : Nat)
  | hang
  | crash
  | giveBack (value : Expr)
  | declareGlobal (name : String)
  deriving Inhabited

/-- A function: the line on which it is defined, its parameters and its body. -/
structure Function where
  line : Nat
  params : List String
  body : List Stmt

inductive Line where
  | blank
  | stmt (s : Stmt)
  | define (name : String) (params : List String) (body : List Stmt)

end Rerun.Program
