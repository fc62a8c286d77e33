/-!
The input queue of a run: the values that were given so far, which are never dropped or changed,
and a cursor that counts how many of them an attempt has read.
-/

namespace Rerun

structure InputQueue where
  values : List String
  cursor : Nat := 0
  deriving DecidableEq, Inhabited

namespace InputQueue

def append (q : InputQueue) (value : String) : InputQueue :=
  { q with values := q.values ++ [value] }

def rewind (q : InputQueue) : InputQueue := { q with cursor := 0 }

/-- The value at the cursor, which then moves on; nothing at the end. -/
def next (q : InputQueue) : Option String × InputQueue :=
  match q.values[q.cursor]? with
  | some v => (some v, { q with cursor := q.cursor + 1 })
  | none => (none, q)

def markConsumed (q : InputQueue) (count : Int) : InputQueue :=
  { q with cursor := min count.toNat q.values.length }

def exhausted (q : InputQueue) : Bool := q.values.length ≤ q.cursor

def size (q : InputQueue) : Nat := q.values.length

@[simp] theorem values_append (q : InputQueue) (value : String) :
    (q.append value).values = q.values ++ [value] := rfl

@[simp] theorem values_rewind (q : InputQueue) : q.rewind.values = q.values := rfl

@[simp] theorem cursor_rewind (q : InputQueue) : q.rewind.cursor = 0 := rfl

@[simp] theorem values_markConsumed (q : InputQueue) (count : Int) :
    (q.markConsumed count).values = q.values := rfl

end InputQueue

end Rerun
