import Rerun.Proofs.Sandbox.Answers
import Rerun.Proofs.Sandbox.Recalls

/-!
Executions that nobody else has a part in. Others are let act only while a request is on its way;
when the next thing that a process does with one brings no commands of theirs, an execution comes to
the same whoever they are (`Execution.execute_private`).
-/

namespace Rerun

open Sandbox Op

variable {s t : Sandbox} {others others' : Interrupts}

namespace Op.Along

variable {α β : Type} {R : Sandbox → Sandbox → Prop}

/-- What comes after what is the same, and has no part for others in it, is the same. -/
theorem bind_congr {x x' : Op α} {f : α → Op β} (hf : ∀ a, (f a).Along R)
    (h : x others s = x' others' t) : (x >>= f) others s = (x' >>= f) others' t := by
  rw [bind_apply, bind_apply, h]
  rcases x' others' t with ⟨e | a, u⟩
  · rfl
  · exact (hf a).deaf others others' u

end Op.Along

/-! ### Processes -/

namespace Process

/-- What becomes of a request that the interpreter itself answers, while nobody else acts. -/
theorem post_private {i : Nat} {y : Child} (hquiet : others.Quiet) (hquiet' : others'.Quiet)
    (hs : s.Sane) (hy : s.children[i]? = some y) (halive : y.alive = true)
    (hby : s.byInputs = none) (hnext : AnswersNext y.script.replies) (path : String)
    (body : Json) : post i path body others s = post i path body others' s := by
  have h₁ := (Attends.refl hs hy halive).setChild (f := fun c =>
    { c with posts := c.posts ++ [(path, body)] }) fun _ => ⟨rfl, rfl⟩
  have hy₁ : (noted i path body s).children[i]? =
      some { y with posts := y.posts ++ [(path, body)] } :=
    Table.getElem?_modify_eq_some.mpr ⟨y, hy, by rw [if_pos rfl]⟩
  obtain ⟨r, u, hscripted, -, hduring, -⟩ := does_nextScripted h₁ hy₁ hby hnext path body
  have hacts {others : Interrupts} (hquiet : others.Quiet) :
      others r.during { u with clock := u.clock + r.took } =
        { u with clock := u.clock + r.took } := by
    rw [hduring, hquiet]
  rw [post_of_scripted hscripted (hacts hquiet), post_of_scripted hscripted (hacts hquiet')]
  exact (serves_passes.react i path body r).isDeaf.deaf others others' _

end Process

theorem Interpreter.recalls_heard (h : Nat) (path : String) (timeout : Binary64) (ended : Ended) :
    (heard h path timeout ended).Recalls :=
  chains_heard Op.Along.chains (Registry.pervades_recalls.kill h) path timeout ended

/-! ### Using a session -/

namespace Registry

variable {α : Type} {key : String} {r : Nat} {x : Record}

/-- Uses a session that is held already, and lets go of it. -/
def closing (key : String) (r : Nat) (use : Op α) : Op α := do
  letGo key r (← Op.outcome use)

theorem holding_eq_closing (hr : s.sessions.lookup key = some r) (hx : s.records[r]? = some x)
    (hfree : x.locked = false) (use : Nat → Op α) :
    holding key use others s = closing key r (use x.handle) others (held s r) := by
  have hx' : (held s r).records[r]? = some { x with state := .busy, locked := true } :=
    Table.getElem?_modify_eq_some.mpr ⟨x, hx, by rw [if_pos rfl]⟩
  have hrecord : (record r).Does (held s r) _ (held s r) := does_need hx'
  exact ((does_hold hr hx hfree).step _ others).trans (hrecord.step _ others)

theorem closing_congr {use use' : Op α} (h : use others s = use' others' t) :
    closing key r use others s = closing key r use' others' t := by
  refine Along.bind_congr (Along.chains.letGo (pervades_recalls.release key r)) ?_
  unfold Op.outcome
  rw [h]

end Registry

/-! ### Executions -/

namespace Execution

open Registry

variable {key : String} {r c : Nat} {x : Record} {y : Child} {consumed : Int → Op Unit}
  {req : Request}

theorem executeLocal_private (hquiet : others.Quiet) (hquiet' : others'.Quiet) (hs : s.Sane)
    (hr : s.sessions.lookup key = some r) (hlive : Attached s r x c y) (hby : s.byInputs = none)
    (hnext : AnswersNext y.script.replies) (hconsumed : ∀ n, (consumed n).Deaf) :
    executeLocal consumed req key others s = executeLocal consumed req key others' s := by
  obtain ⟨z, hz, hc⟩ := hlive.handle
  have hpost := Process.post_private hquiet hquiet' (sane_held hs r) hlive.child hlive.alive hby
    hnext "/run" req.body
  have huse : Interpreter.execute x.handle req.body req.timeout others (held s r) =
      Interpreter.execute x.handle req.body req.timeout others' (held s r) := by
    rw [Interpreter.execute, Interpreter.post_of_child (s := held s r) hz hc req.hasNonFinite_body,
      Interpreter.post_of_child (s := held s r) hz hc req.hasNonFinite_body]
    exact Along.bind_congr (Interpreter.recalls_heard _ _ _) hpost
  have hholding : holding key (fun h => Interpreter.execute h req.body req.timeout) others s =
      holding key (fun h => Interpreter.execute h req.body req.timeout) others' s := by
    rw [holding_eq_closing hr hlive.record hlive.free,
      holding_eq_closing hr hlive.record hlive.free]
    exact closing_congr huse
  have hnow : now.Does s s.clock s := does_view _
  rw [executeLocal, hnow.step, hnow.step]
  refine Along.bind_congr (R := fun _ _ => True) (Along.chains.concluded ?_) ?_
  · exact Along.chains.settle hconsumed (fun _ _ => (pervades_recalls.note _ _).isDeaf) _
  · unfold Op.outcome
    rw [hholding]

/-- Nobody else has a part in an execution whose interpreter answers itself. -/
theorem execute_private (hquiet : others.Quiet) (hquiet' : others'.Quiet) (hs : s.Sane)
    (hanswers : s.Answering) (hconsumed : ∀ n, (consumed n).Deaf) (hkey : req.key ≠ "")
    (hfree : Free req.key s) {others₀ : Interrupts} {r₀ : Nat}
    (hstart : start req.key others₀ s = (.ok r₀, t)) :
    execute Contexts.onSweep consumed req others s =
      execute Contexts.onSweep consumed req others' s := by
  obtain ⟨u, r, x, c, y, hacquire, hacquired⟩ : ∃ u r x c y,
      acquire Contexts.onSweep (some req.key) others s = (.ok req.key, u) ∧
        Acquired req.key s u r x c y :=
    acquire_acquired hs hkey hfree hstart
  have hacquire' : acquire Contexts.onSweep (some req.key) others' s = (.ok req.key, u) :=
    ((recalls_acquire _).deaf others' others s).trans hacquire
  rw [execute_of_acquired hacquire, execute_of_acquired hacquire']
  exact executeLocal_private hquiet hquiet' hacquired.sane hacquired.session hacquired.attached
    (hacquired.kept.byInputs.trans hanswers.plain) (hacquired.answersNext hanswers) hconsumed

end Execution

end Rerun
