import Rerun.Proofs.Sandbox.Recalls

/-!
What lies outside the registry: while a session is taken down, started or looked for under a key,
nothing changes but sessions and records, interpreters, folders and the clock
(`Sandbox.SameOutside`). Nothing else is touched: neither runs and contexts nor challenges, seeds,
the remote judge, or what was told of sweeps.
-/

namespace Rerun

open Sandbox Op

/-- Nothing has changed outside the registry and its interpreters. -/
abbrev Sandbox.SameOutside (s t : Sandbox) : Prop := t = { s with
  clock := t.clock, scripts := t.scripts, children := t.children, folders := t.folders
  handles := t.handles, records := t.records, sessions := t.sessions }

instance : IsPreorder Sandbox SameOutside where
  refl _ := rfl
  trans _ _ u h h' := h'.trans (congrArg (fun v : Sandbox => { v with
    clock := u.clock, scripts := u.scripts, children := u.children, folders := u.folders
    handles := u.handles, records := u.records, sessions := u.sessions }) h)

theorem Registry.pervades_outside : Registry.Pervades fun x => x.Along SameOutside where
  toChains := Op.Along.chains
  child _ _ _ := .change fun _ => rfl
  spawn _ _ _ := .change fun _ => rfl
  openLog _ := .change fun _ => rfl
  writeLog _ _ := .change fun _ => rfl
  handle _ _ := .change fun _ => rfl
  addHandle _ _ := .change fun _ => rfl
  sleep _ := .change fun _ => rfl
  outcome := .outcome
  enlist _ _ := .change fun _ => rfl
  record _ _ _ := .change fun _ => rfl
  journal _ _ := .change fun _ => rfl
  metadata _ _ := .change fun _ => rfl
  sessions _ := .change fun _ => rfl
  remove _ := .change fun _ => rfl
  count _ := .change fun _ => rfl

end Rerun
