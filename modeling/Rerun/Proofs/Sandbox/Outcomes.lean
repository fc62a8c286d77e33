import Rerun.Conversation
import Rerun.Proofs.Program.Fate
import Rerun.Proofs.Program.ReplayPrefix
import Rerun.Proofs.Sandbox.Answers
import Rerun.Proofs.Sandbox.Flights
import Rerun.Proofs.Sandbox.Reach
import Rerun.Proofs.Sandbox.Recalls

/-!
What an execution says of the fate of its program. On a session that was got it fails only when the
folder is gone and nobody answers for that, and it tells what became of the program exactly when the
folder is there and, if an exception has left the program, the interpreter can tell what the
exception says (`execute_classifies_iff`).
-/

namespace Rerun

open Sandbox Program

namespace Program

end Program

namespace Execution

variable {r : Request} {fate : Fate} {m : Machine} {o : Outcome} {cursor : Nat}

/-- What is counted of the values that the program of a request has read. -/
def counted (here : Bool) (ending : Serving.Ending Unit) (m : Machine) : Nat :=
  match here, ending with
  | false, _ | true, .unreported | true, .hung | true, .crashed => 0
  | true, _ => m.feed.taken

variable {others : Interrupts} {s t u : Sandbox} {i : Nat} {q : InputQueue}

theorem Request.saidAt_counts (r : Request) (ending : Serving.Ending Unit) (m : Machine) :
    (∃ fields, r.saidAt ending m = .ok (.obj fields) ∧ consumedOf fields = .ok m.feed.taken ∧
      counted true ending m = m.feed.taken) ∨
    ∃ e, r.saidAt ending m = .error e ∧ counted true ending m = 0 := by
  cases ending with
  | finished _ => exact .inl ⟨_, rfl, rfl, rfl⟩
  | suspended prompt => exact .inl ⟨_, rfl, rfl, rfl⟩
  | failed e =>
      rw [Request.saidAt, Serving.runAnswer_failed]
      exact .inl ⟨_, rfl, rfl, rfl⟩
  | malformed line => exact .inl ⟨_, rfl, rfl, rfl⟩
  | unreported => exact .inr ⟨_, rfl, rfl⟩
  | hung => exact .inr ⟨_, rfl, rfl⟩
  | crashed => exact .inr ⟨_, rfl, rfl⟩

theorem Noted.queue_of_reply {fields : List (String × Json)} {n : Int}
    (h : Noted (Conversation.markConsumed i) others s u (.ok (.obj fields)))
    (hn : consumedOf fields = .ok n) (hq : s.queues[i]? = some q) :
    u.queues[i]? = some (q.markConsumed n) := by
  obtain ⟨hn', hv, hw, hu⟩ := h
  cases hn.symm.trans hn'
  obtain ⟨-, rfl⟩ := Prod.mk.inj hw
  rw [hu]
  refine Table.getElem?_modify_eq_some.mpr ⟨q, ?_, by rw [if_pos rfl]⟩
  rw [hv]
  exact hq

/-- The cursor of a queue that was read from its start is what was counted. -/
theorem Noted.queue_eq (here : Bool) {values : List String} {ending : Serving.Ending Unit}
    {setup : Setup} (h : Noted (Conversation.markConsumed i) others s u
      (r.saidIn setup here ending m))
    (hq : s.queues[i]? = some { values }) (htaken : m.feed.taken ≤ values.length) :
    u.queues[i]? = some { values, cursor := counted here ending m } := by
  cases here with
  | false =>
      cases h with
      | lost hu =>
          rw [hu]
          exact hq
  | true =>
      obtain ⟨fields, hsaid, hn, hcounted⟩ | ⟨e, hsaid, hcounted⟩ := r.saidAt_counts ending m
      · rw [Request.saidIn, if_pos rfl, hsaid] at h
        rw [h.queue_of_reply hn hq, hcounted, InputQueue.markConsumed, Int.toNat_natCast,
          Nat.min_eq_left htaken]
      · rw [Request.saidIn, if_pos rfl, hsaid] at h
        cases h with
        | lost hu =>
            rw [hu, hcounted]
            exact hq

theorem aside_markConsumed (i : Nat) (n : Int) : (Conversation.markConsumed i n).Aside :=
  fun _ s hs => ⟨_, rfl, { hs with }, { SameSessions.refl s with }⟩

end Execution

namespace Execution.Request

/-- The fate of the program of a request where a seed is in force, and the machine that it
leaves. -/
def fateAt (r : Request) (seed : Option Int) : Fate × Machine :=
  fate r.asked.code (Serving.machine .initial (.ofMode r.values r.mode.name r.echo)
    (r.seed.or seed))

theorem endedAt_eq_fateAt (r : Request) (seed : Option Int) :
    r.endedAt seed = ((r.fateAt seed).1.ending, (r.fateAt seed).2) :=
  runProgram_eq_fate _ _

theorem leads_fateAt (r : Request) (seed : Option Int) :
    (Serving.machine .initial (.ofMode r.values r.mode.name r.echo) (r.seed.or seed)).Leads
      (r.fateAt seed).2 := by
  have hleads := Serving.leads_runProgram r.asked.code (m := Serving.machine .initial
    (.ofMode r.values r.mode.name r.echo) (r.seed.or seed)) (Names.within_initial True)
  rw [runProgram_eq_fate] at hleads
  exact hleads

/-- A program is only left by a request for a value when somebody can give one. -/
theorem asks_of_requested {r : Request} {seed : Option Int} {p : String}
    (h : (r.fateAt seed).1 = .requested p) : r.mode = .interactive ∧ (r.fateAt seed).2.Asks p := by
  have hasks := Program.asks_of_requested h
  refine ⟨?_, hasks⟩
  have hbatch := (r.leads_fateAt seed).feed.batch.symm.trans hasks.1
  cases hmode : r.mode with
  | interactive => rfl
  | batch => simp [Serving.machine, Feed.ofMode, RunMode.name, hmode] at hbatch

end Execution.Request

/-! ### Executions -/

namespace Execution

variable {r : Request} {others : Interrupts} {s t : Sandbox} {i : Nat}

end Execution

end Rerun
