import Rerun.Proofs.Sandbox.Composition
import Rerun.Proofs.Sandbox.Passes

/-!
What requests consist of, be they to an interpreter or to the judge. A property that is handed on
holds of requests when it holds of what is changed in them and of the turns of others
(`Requests.Pervades`, and `RemoteClient.Pervades` for the judge alone). At some points others act,
and apart from that no more happens than that time passes (`Op.Requests`); so whatever holds along
both of that, and is handed on to what is put together (`Op.Composes`), holds along a request.
-/

namespace Rerun

open Sandbox

namespace Op

variable {α β : Type}

/-- A property that is handed on, and that operations have along which time passes, and the turns of
others. -/
structure Composes (P : ∀ {α : Type}, Op α → Prop) : Prop extends Chains @P where
  passes {α : Type} {x : Op α} : x.Passes → P x
  interleave (commands : List Command) : P (Op.interleave commands)
  rescue {α : Type} {x : Op α} {other : Failure → Op α} :
    P x → (∀ e, P (other e)) → P (Op.rescue x other)

/-- An operation that consists of requests: others act at some points of it, and apart from that
time passes. -/
inductive Requests : {α : Type} → Op α → Prop
  | passes {α : Type} {x : Op α} : x.Passes → Requests x
  | interleave (commands : List Command) : Requests (Op.interleave commands)
  | bind {α β : Type} {x : Op α} {f : α → Op β} :
      Requests x → (∀ a, Requests (f a)) → Requests (x >>= f)
  | rescue {α : Type} {x : Op α} {other : Failure → Op α} :
      Requests x → (∀ e, Requests (other e)) → Requests (Op.rescue x other)

namespace Requests

theorem of_composes {P : ∀ {α : Type}, Op α → Prop} (hP : Composes @P) {x : Op α}
    (h : Requests x) : P x := by
  induction h with
  | passes h => exact hP.passes h
  | interleave commands => exact hP.interleave commands
  | bind _ _ hx hf => exact hP.bind hx hf
  | rescue _ _ hx hother => exact hP.rescue hx hother

end Requests

theorem Keeps.chains {alone : Prop} : Chains fun x => x.Keeps alone := ⟨.of_still, .bind⟩

theorem composes_keeps : Composes fun x => x.Keeps False :=
  ⟨Keeps.chains, .of_passes, .interleave, .rescue⟩

theorem Requests.keeps {x : Op α} (h : x.Requests) : x.Keeps False := h.of_composes composes_keeps

end Op

/-! ### Requests to interpreters -/

namespace Process

namespace Serves

variable {P : ∀ {α : Type}, Op α → Prop} (hP : Serves @P)

include hP

theorem writeScripted (i : Nat) (a : Scripted) : P (Process.writeScripted i a) := by
  unfold Process.writeScripted
  split
  · exact hP.bind (hP.need _) fun _ => hP.shown _ _
  · exact hP.pure ()

theorem react (i : Nat) (path : String) (body : Json) (a : Scripted) :
    P (Process.react i path body a) := by
  refine hP.bind (hP.writeScripted i a) fun _ => ?_
  split
  · exact hP.pure _
  · exact hP.serve i path body

end Serves

end Process

namespace Interpreter

/-- A process that does not answer is ended, and apart from that one only looks. -/
theorem chains_heard {P : ∀ {α : Type}, Op α → Prop} (hP : Op.Chains @P) {h : Nat}
    (hkill : P (kill h)) (path : String) (timeout : Binary64) (ended : Ended) :
    P (heard h path timeout ended) := by
  unfold heard
  split
  · exact hP.fail _
  · exact iteInduction (fun _ => hP.readBody _) fun _ => hP.fail _
  · exact hP.bind hkill fun _ => hP.bind (hP.shownOf h path) fun _ => hP.fail _
  · exact hP.bind (hP.shownOf h path) fun _ => hP.bind hkill fun _ => hP.fail _
  · exact hP.fail _

theorem addressee_eq_ok {h c : Nat} {body : Json} {others : Interrupts} {s t : Sandbox}
    (hc : addressee h body others s = (.ok c, t)) :
    ∃ z, s.handles[h]? = some z ∧ z.child = some c ∧ t = s := by
  obtain ⟨z, u, hz, hrest⟩ := Op.bind_eq_ok.mp hc
  obtain ⟨hz, rfl⟩ := Op.need_eq_ok hz
  cases hchild : z.child with
  | none =>
      rw [hchild] at hrest
      exact absurd (Prod.mk.inj hrest).1 nofun
  | some c' =>
      rw [hchild] at hrest
      dsimp only at hrest
      split at hrest
      · exact absurd (Prod.mk.inj hrest).1 nofun
      · obtain ⟨hgiven, rfl⟩ := Prod.mk.inj hrest
        obtain rfl := Except.ok.inj hgiven
        exact ⟨z, hz, hchild, rfl⟩

theorem chains_addressee {P : ∀ {α : Type}, Op α → Prop} (hP : Op.Chains @P) (h : Nat)
    (body : Json) : P (addressee h body) := by
  refine hP.bind (hP.need _) fun x => ?_
  split
  · exact hP.fail _
  · exact iteInduction (fun _ => hP.fail _) fun _ => hP.pure _

end Interpreter

/-! ### Requests as a whole -/

/-- A property that is handed on and that everything has that a request to the judge consists of. -/
structure RemoteClient.Pervades (P : ∀ {α : Type}, Op α → Prop) : Prop extends Op.Chains @P where
  elapse (ms : Int) : P (Op.change fun s => { s with clock := s.clock + ms })
  interleave (commands : List Command) : P (Op.interleave commands)
  rescue {α : Type} {x : Op α} {other : Failure → Op α} :
    P x → (∀ e, P (other e)) → P (Op.rescue x other)
  requested (request : RemoteRequest) : P (Op.change fun s => { s with
    remoteRequests := s.remoteRequests ++ [request] })
  judged : P RemoteClient.nextScripted
  wait (cancel : Cancel) (seconds : Binary64) : P (cancel.wait seconds)

namespace RemoteClient.Pervades

variable {P : ∀ {α : Type}, Op α → Prop} (hP : RemoteClient.Pervades @P)

include hP

theorem request (c : RemoteClient) (method path query : String) (body : Json) :
    P (c.request method path query body) := by
  have hopen : P c.ensureOpen :=
    hP.bind (hP.view _) fun _ => iteInduction (fun _ => hP.fail _) fun _ => hP.pure _
  refine hP.bind hopen fun _ => hP.bind (hP.requested _) fun _ => hP.bind hP.judged fun r =>
    hP.bind (hP.elapse r.took) fun _ => hP.bind (hP.interleave r.during) fun _ => ?_
  split
  · exact hP.fail _
  · exact hP.fail _
  · exact hP.fail _
  · exact iteInduction (fun _ => hP.rescue (hP.readBody _) fun _ => hP.fail _) fun _ => hP.fail _

theorem submit (c : RemoteClient) (source stdin : String) (expected : Option String) :
    P (c.submit source stdin expected) := by
  refine hP.bind (hP.request c _ _ _ _) fun payload => ?_
  split
  · exact iteInduction (fun _ => hP.fail _) fun _ => hP.pure _
  · exact hP.fail _

theorem poll (c : RemoteClient) (token : Json) : P (c.poll token) := by
  refine iteInduction (fun _ => hP.fail _) fun _ => hP.bind (hP.request c _ _ _ _) fun payload => ?_
  split
  · exact hP.pure _
  · exact hP.fail _

theorem pollUntil (c : RemoteClient) (token : Json) (deadline : Binary64) (cancel : Cancel)
    (fuel : Nat) : P (c.pollUntil token deadline cancel fuel) := by
  induction fuel with
  | zero => exact hP.pure _
  | succ fuel ih =>
      refine hP.bind (hP.view _) fun t => iteInduction (fun _ => hP.pure _) fun _ => ?_
      refine hP.bind (hP.view _) fun set => iteInduction (fun _ => hP.pure _) fun _ => ?_
      refine hP.bind (hP.poll c token) fun r => iteInduction (fun _ => hP.pure _) fun _ => ?_
      exact hP.bind (hP.wait cancel _) fun set => iteInduction (fun _ => hP.pure _) fun _ => ih

theorem execute (c : RemoteClient) (source stdin : String) (expected : Option String)
    (maxWait : Binary64) (cancel : Cancel) :
    P (c.execute source stdin expected maxWait cancel) := by
  refine hP.bind (hP.submit c _ _ _) fun token => hP.bind (hP.view _) fun t =>
    hP.bind (hP.view _) fun fuel => hP.bind (hP.pollUntil c token _ cancel fuel) fun polled => ?_
  split
  · exact hP.pure _
  · exact hP.pure _
  · exact hP.pure _
  · split
    · exact hP.pure _
    · exact hP.fail _

theorem executeRemote (remote : RemoteClient) (maxWait : Binary64) (r : Execution.Request)
    (started : Int) : P (Execution.executeRemote remote maxWait r started) :=
  hP.toChains.executeRemote (hP.execute remote _ _ _ _ _) started

end RemoteClient.Pervades

/-- A property that is handed on and that everything has that a request consists of, to an
interpreter or to the judge. -/
structure Requests.Pervades (P : ∀ {α : Type}, Op α → Prop) : Prop
    extends Process.Serves @P, RemoteClient.Pervades @P where
  noted (i : Nat) (path : String) (body : Json) : P (setChild i fun c =>
    { c with posts := c.posts ++ [(path, body)] })
  kill (h : Nat) : P (Interpreter.kill h)

namespace Requests.Pervades

variable {P : ∀ {α : Type}, Op α → Prop} (hP : Requests.Pervades @P)

include hP

/-- Others act after the time that the answer takes, and before it is made. -/
theorem arrive (i : Nat) (path : String) (body : Json) : P (Process.arrive i path body) :=
  hP.bind (hP.noted i path body) fun _ => hP.bind (hP.nextScripted i path body) fun a =>
    hP.bind (hP.elapse a.took) fun _ => hP.bind (hP.interleave a.during) fun _ => hP.pure a

theorem send (i : Nat) (path : String) (body : Json) : P (Process.post i path body) :=
  hP.bind (hP.arrive i path body) fun a => hP.react i path body a

theorem post (h : Nat) (path : String) (body : Json) (timeout : Binary64) :
    P (Interpreter.post h path body timeout) :=
  hP.bind (Interpreter.chains_addressee hP.toChains h body) fun c =>
    hP.bind (hP.send c path body) (Interpreter.chains_heard hP.toChains (hP.kill h) path timeout)

end Requests.Pervades

theorem Op.pervades_requests : Requests.Pervades fun x => x.Requests where
  toServes := Process.serves_passes.imp ⟨fun h => .passes (.of_still h), .bind⟩ .passes
  interleave := .interleave
  rescue := .rescue
  noted i _ _ := .passes (.setChild i fun _ => ⟨rfl, rfl, id, id⟩)
  kill h := .passes (Interpreter.passes_kill h)
  requested _ := .passes (.change fun s =>
    { Sandbox.Passes.refl s with tables := { SameTables.refl s with } })
  judged := .passes RemoteClient.passes_nextScripted
  wait cancel seconds := .passes (cancel.passes_wait seconds)

end Rerun
