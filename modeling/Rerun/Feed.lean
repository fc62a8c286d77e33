/-!
The values that one attempt can read. A read that finds none left either stops the attempt, to be
run again when a value has come (`Dry.requested`), or meets the end of the input.
-/

namespace Rerun

/-- What a read that finds no value left comes to. -/
inductive Dry where
  | requested (prompt : String)
  | ended
  deriving DecidableEq

structure Feed where
  /-- The values not yet read. -/
  left : List String
  /-- How many values were read. -/
  taken : Nat := 0
  /-- Nobody can give further values. -/
  batch : Bool := false
  /-- Values read by a prompt are shown like typed ones. -/
  echo : Bool := true
  deriving DecidableEq

namespace Feed

def endMessage : String := "EOF when reading a line"

/-- A feed of no values to which none will come. -/
def closed : Feed := { left := [], batch := true, echo := false }

def ofMode (values : List String) (mode : String) (echo : Bool) : Feed :=
  { left := values, batch := mode = "batch", echo }

def take (f : Feed) : Option String × Feed :=
  match f.left with
  | [] => (none, f)
  | v :: vs => (some v, { f with left := vs, taken := f.taken + 1 })

def drain (f : Feed) : List String × Feed :=
  (f.left, { f with left := [], taken := f.taken + f.left.length })

/-- What a read with a prompt finds when no value is left. -/
def dry (f : Feed) (prompt : String) : Dry :=
  if f.batch then .ended else .requested prompt

def ask (f : Feed) (prompt : String) : Except Dry String × Feed :=
  match f.take with
  | (some v, f) => (.ok v, f)
  | (none, f) => (.error (f.dry prompt), f)

/-- What a value looks like after it was typed: itself and a newline, or nothing when values are
not shown. -/
def echoOf (f : Feed) (value : String) : String :=
  if f.echo then value ++ "\n" else ""

def readLine (f : Feed) : Except Dry String × Feed :=
  match f.take with
  | (some v, f) => (.ok (v ++ "\n"), f)
  | (none, f) => (if f.batch then .ok "" else .error (.requested ""), f)

def linesOf (values : List String) : String :=
  String.join (values.map (· ++ "\n"))

def readAll (f : Feed) : Except Dry String × Feed :=
  let (values, f) := f.drain
  if values.isEmpty && !f.batch then (.error (.requested ""), f) else (.ok (linesOf values), f)

/-- Reads the lines that are left up to the end of the input, which only comes when nobody can
give further values. -/
def readLines (f : Feed) : Except Dry (List String) × Feed :=
  let (values, f) := f.drain
  if f.batch then (.ok (values.map (· ++ "\n")), f) else (.error (.requested ""), f)

@[simp] theorem take_nil {f : Feed} (h : f.left = []) : f.take = (none, f) := by
  simp [take, h]

theorem take_cons {f : Feed} {v : String} {vs : List String} (h : f.left = v :: vs) :
    f.take = (some v, { f with left := vs, taken := f.taken + 1 }) := by
  simp [take, h]

end Feed

end Rerun
