import Rerun.Run

/-!
Challenges: a program is loaded once, and its functions are called many times while the names that
it has given values to stay.
-/

namespace Rerun.Challenge

open Sandbox

/-- The one-line error of a reply, as a text. -/
def describe (i : Nat) (reply : List (String × Json)) : Op String := do
  let c ← challenge i
  let given := (reply.lookup "error").getD .null
  match if given.isFalsy then .obj [] else given with
  | .obj error => do
    let line ← Op.ofExcept
      (Execution.describe error (c.source.map (·.prependLines) |>.getD 0))
    pure (Execution.asText line)
  | _ => Op.fail (.other "AttributeError")

def teardown (i : Nat) : Op Unit := do
  setChallenge i fun c => { c with active := false }
  let c ← challenge i
  Registry.reset c.key

def fieldsOf : Json → Op (List (String × Json))
  | .obj fields => pure fields
  | _ => Op.fail (.other "AttributeError")

/-- Loads a program into a new session and gives what it shows. -/
def load (listener : String → Op Unit) (i : Nat) (source : Source) : Op Json := do
  teardown i
  setChallenge i fun c => { c with source := some source }
  let c ← challenge i
  let _ ← Registry.acquire listener (some c.key)
  let use := Registry.holding c.key fun h => Interpreter.load h source.text c.timeout .null
  let reply ← Op.rescue use fun e =>
    Op.fail (if e.losesInterpreter then .challengeLoad e.message else e)
  let fields ← fieldsOf reply
  if (fields.lookup "status").bind Json.str? ≠ some "ok" then do
    teardown i
    let reason ← describe i fields
    Op.fail (.challengeLoad reason)
  else do
    let stdout := (fields.lookup "stdout").getD (.str "")
    setChallenge i fun c => { c with active := true, invocations := 0, lastStdout := stdout }
    pure stdout

/-- What a failed call of a function means for the challenge. -/
def callFailure (i : Nat) (function : String) (e : Failure) : Op Json := do
  if e.losesInterpreter then do
    setChallenge i fun c => { c with active := false }
    Op.fail (.challengeCall function e.message)
  else if e.kind = .unknownSession then do
    setChallenge i fun c => { c with active := false }
    Op.fail (.challengeExpired function)
  else Op.fail e

/-- Calls a function of the loaded program and gives its value. -/
def invoke (i : Nat) (function : String) (args : List Json) : Op Json := do
  let c ← challenge i
  if !c.active then Op.fail .challengeInactive
  else do
    let use := Registry.holding c.key fun h => Interpreter.call h function args c.timeout
    let reply ← Op.rescue use (callFailure i function)
    setChallenge i fun c => { c with invocations := c.invocations + 1 }
    let fields ← fieldsOf reply
    setChallenge i fun c => { c with lastStdout := (fields.lookup "stdout").getD (.str "") }
    if (fields.lookup "status").bind Json.str? ≠ some "ok" then do
      let reason ← describe i fields
      Op.fail (.challengeCall function reason)
    else pure ((fields.lookup "value").getD .null)

/-- Marks a challenge whose session was taken away. -/
def expire (i : Nat) : Op Unit := setChallenge i fun c => { c with active := false }

end Rerun.Challenge
