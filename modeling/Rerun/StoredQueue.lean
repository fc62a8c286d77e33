import Rerun.Failure
import Rerun.InputQueue
import Rerun.Value.Text

/-!
An input queue in memory. Lists are known by their places there, and whoever knows a place may put
anything into its list. The values of a queue are such a list too; a client that asks for them
obtains a list of its own.
-/

namespace Rerun

/-- The text under which a value is queued. An integer that is too long to be written has none. -/
def Value.queued (v : Value) : Except Failure String :=
  if v.isWritable then .ok v.text else .error (.badValue Text.writeLimitMessage)

structure StoredQueue where
  /-- The lists in memory, by their places. -/
  lists : List (List Value)
  /-- The place of the values of the queue. -/
  own : Nat
  cursor : Nat := 0
  /-- The places that clients know. -/
  known : List Nat

namespace StoredQueue

/-- A new queue of texts, in a memory with lists that its clients know already. -/
def ofTexts (lists : List (List Value)) (texts : List String) : StoredQueue where
  lists := lists ++ [texts.map .str]
  own := lists.length
  known := .range lists.length

def create (lists : List (List Value)) (values : Option (List Value)) :
    Except Failure StoredQueue := do
  let texts ← (values.getD []).mapM Value.queued
  pure (ofTexts lists texts)

def queue (m : StoredQueue) : InputQueue where
  values := (m.lists.getD m.own []).map Value.text
  cursor := m.cursor

def store (m : StoredQueue) (q : InputQueue) : StoredQueue :=
  { m with lists := m.lists.set m.own (q.values.map .str), cursor := q.cursor }

/-- What a client can do with a queue, and with the lists that it knows. -/
inductive Use where
  | append (value : Value)
  | next
  | rewind
  | markConsumed (count : Int)
  /-- Asks for the values. -/
  | values
  /-- Puts something else into a list. -/
  | edit (place : Nat) (contents : List Value)

inductive Answer where
  | nothing
  | value (v : String)
  | list (place : Nat)
  deriving DecidableEq

def perform (m : StoredQueue) : Use → Except Failure Answer × StoredQueue
  | .append v =>
    match v.queued with
    | .ok s => (.ok .nothing, m.store (m.queue.append s))
    | .error e => (.error e, m)
  | .next => (.ok (m.queue.next.1.elim .nothing .value), m.store m.queue.next.2)
  | .rewind => (.ok .nothing, m.store m.queue.rewind)
  | .markConsumed n => (.ok .nothing, m.store (m.queue.markConsumed n))
  | .values =>
    -- The client learns the place of a copy, and not that of the values.
    (.ok (.list m.lists.length), { m with
      lists := m.lists ++ [m.lists.getD m.own []], known := m.known ++ [m.lists.length] })
  | .edit place contents =>
    (.ok .nothing,
      if place ∈ m.known then { m with lists := m.lists.set place contents } else m)

/-- One use after another: the answers, and the queue that is left. -/
def run : StoredQueue → List Use → List (Except Failure Answer) × StoredQueue
  | m, [] => ([], m)
  | m, u :: uses =>
    ((m.perform u).1 :: ((m.perform u).2.run uses).1, ((m.perform u).2.run uses).2)

end StoredQueue

end Rerun
