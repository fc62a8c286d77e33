import Rerun.Proofs.Challenge.Seat
import Rerun.Proofs.Sandbox.Reach

/-!
A challenge plays its program. Loading it starts a fresh interpreter, and from then on every call
comes to what it comes to in one program that goes on living; only the clock, the processes and
other sessions move between the calls.
-/

namespace Rerun

open Sandbox Op

variable {s t w : Sandbox} {others : Interrupts} {i : Nat} {c : Challenge} {r : Nat} {x : Record}
  {q : Nat} {y : Child}

/-! ### Playing -/

namespace Challenge

variable {source : Source} {p p' : Play} {function : String} {fields : List (String × Json)}
  {out : Except Failure Json}

def conclude (i : Nat) (function : String) (reply : Json) : Op Json := do
  setChallenge i fun c => { c with invocations := c.invocations + 1 }
  let fields ← fieldsOf reply
  setChallenge i fun c => { c with lastStdout := (fields.lookup "stdout").getD (.str "") }
  if (fields.lookup "status").bind Json.str? ≠ some "ok" then do
    let reason ← describe i fields
    Op.fail (.challengeCall function reason)
  else pure ((fields.lookup "value").getD .null)

theorem invoke_eq (hc : s.challengeTable[i]? = some c) (hactive : c.active = true)
    (function : String) (args : List Json) : invoke i function args others s =
      (Op.rescue (Registry.holding c.key fun h => Interpreter.call h function args c.timeout)
        (callFailure i function) >>= conclude i function) others s := by
  have hchallenge : (challenge i).Does s c s := does_need hc
  refine (hchallenge.step _ others).trans ?_
  rw [hactive]
  rfl

/-- What a challenge makes of the reply to a load. -/
def begun (i : Nat) (reply : Json) : Op Json := do
  let fields ← fieldsOf reply
  if (fields.lookup "status").bind Json.str? ≠ some "ok" then do
    teardown i
    let reason ← describe i fields
    Op.fail (.challengeLoad reason)
  else do
    let stdout := (fields.lookup "stdout").getD (.str "")
    setChallenge i fun c => { c with active := true, invocations := 0, lastStdout := stdout }
    pure stdout

def loadFailure (e : Failure) : Op Json :=
  Op.fail (if e.losesInterpreter then .challengeLoad e.message else e)

theorem recalls_teardown (i : Nat) : (teardown i).Recalls :=
  .bind (.setChallenge i fun _ => rfl) fun _ => .bind (.need _) fun _ =>
    Registry.pervades_recalls.resetSession _

theorem does_teardown (hs : s.Sane) (hc : s.challengeTable[i]? = some c) :
    ∃ v, (teardown i).Does s () v ∧ v.Sane ∧
      v.challengeTable[i]? = some { c with active := false } ∧ v.sessions.lookup c.key = none ∧
      v.setup = s.setup ∧ v.scripts = s.scripts ∧ v.clock = s.clock := by
  have hs₁ := hs.modifyChallenge i (f := fun c => { c with active := false }) fun _ => rfl
  have hc₁ : (s.challengeTable.modify i fun c => { c with active := false })[i]? =
      some { c with active := false } :=
    Table.getElem?_modify_eq_some.mpr ⟨c, hc, by rw [if_pos rfl]⟩
  have hchallenge : (challenge i).Does { s with challengeTable := s.challengeTable.modify i fun c =>
      { c with active := false } } _ _ := does_need hc₁
  obtain ⟨v, hreset, htorn⟩ := Registry.does_reset hs₁ c.key
  refine ⟨v, .bind (does_change _) (hchallenge.bind hreset), htorn.sane, ?_, ?_, ?_, ?_, ?_⟩
  · rw [htorn.tables]
    exact hc₁
  · rw [htorn.sessions]
    exact Assoc.lookup_drop_self _ _
  · rw [htorn.tables]
  · rw [htorn.tables]
  · rw [htorn.tables]

def told (s : Sandbox) (i : Nat) (source : Source) : Sandbox :=
  { s with challengeTable := s.challengeTable.modify i fun c => { c with source := some source } }

variable (others) in
/-- A program is loaded into a session that is got once the challenge has been given up. -/
theorem load_of_teardown (hteardown : (teardown i).Does s () t)
    (hc : t.challengeTable[i]? = some c) (source : Source) :
    load Contexts.onSweep i source others s =
      (Registry.acquire Contexts.onSweep (some c.key) >>= fun _ =>
        Op.rescue (Registry.holding c.key fun h =>
          Interpreter.load h source.text c.timeout .null) loadFailure >>= begun i) others
        (told t i source) := by
  have hc' : (t.challengeTable.modify i fun c => { c with source := some source })[i]? =
      some { c with source := some source } :=
    Table.getElem?_modify_eq_some.mpr ⟨c, hc, by rw [if_pos rfl]⟩
  have hchallenge : (challenge i).Does { t with challengeTable := t.challengeTable.modify i fun c =>
      { c with source := some source } } _ _ := does_need hc'
  exact (hteardown.step _ others).trans (((does_change _).step _ others).trans
    (hchallenge.step _ others))

/-- What clients have had of a challenge since its program was loaded: what came of that, with the
seed in force then, and the calls with what their callers got. -/
structure Course where
  source : Source
  seed : Option Int
  loaded : Except Failure Json
  calls : List Call := []
  outs : List (Except Failure Json) := []

/-- What a course comes to in a program that goes on living: the program when it is loaded, what the
callers get, and the program after the last call. -/
def Course.played (k : Course) : Option (Play × List (Except Failure Json) × Play) :=
  (Play.load k.seed k.source).bind fun p => (p.run k.source k.calls).map fun r => (p, r)

/-- A program with a name and a function. -/
def first : Source where
  code := "[\"set\", \"m\", 0]
[\"def\", \"g\", [], []]"

/-- A program that shows what the other one has set, and fails after it has set it itself. -/
def second : Source where
  code := "[\"def\", \"f\", [], [[\"global\", \"m\"], [\"set\", \"m\", 1], [\"raise\", \"KeyError\"]]]
[\"def\", \"h\", [], [[\"return\", \x7b\"var\": \"m\"\x7d]]]"

/-- The sandbox after the first program was loaded and called. -/
def called : Sandbox :=
  orderly 1 [.challengeLoad "a" first, .challengeInvoke "a" "g" []] usual

def outText : Except Failure Json → String
  | .ok j => Execution.asText j
  | .error e => e.message

end Challenge

end Rerun
