import Rerun.Proofs.Program.Leads
import Rerun.Serving

/-!
What becomes of a program, whoever tells of it: it cannot be read, it ends, an exception or the
request for a value leaves it, it hangs, or it brings its process down.
-/

namespace Rerun.Program

/-! ### Requests for a value -/

/-- The last read has found no value left where another one may come, and has asked for it with a
prompt; a read of lines asks with none. -/
def Machine.Asks (m : Machine) (prompt : String) : Prop :=
  m.feed.batch = false ∧ ∃ d, m.demands.getLast? = some d ∧ d.prompt = prompt ∧
    (d.prompted = false → prompt = "")

/-- A computation that is left by a request for a value is left by that of its last read. -/
def Asking {α : Type} (x : Run α) : Prop :=
  ∀ m p, (x m).1 = .error (.requested p) → (x m).2.Asks p

namespace Asking

variable {α β : Type}

theorem bind {x : Run α} {f : α → Run β} (hx : Asking x) (hf : ∀ a, Asking (f a)) :
    Asking (x >>= f) := by
  intro m p hp
  have h := hx m p
  rw [Run.bind_apply] at hp ⊢
  rcases hr : x m with ⟨s | a, n⟩ <;> rw [hr] at hp h
  · exact h (by simpa using hp)
  · exact hf a n p hp

theorem ofRead {prompted : Bool} {read : Feed → Except Dry α × Feed}
    (hread : ∀ f g p, read f = (.error (.requested p), g) →
      g.batch = false ∧ (prompted = false → p = "")) : Asking (Run.ofRead prompted read) := by
  intro m p hp
  unfold Run.ofRead at hp ⊢
  rcases hr : read m.feed with ⟨(q | _) | a, g⟩ <;> rw [hr] at hp
  · obtain rfl := Stop.requested.inj (Except.error.inj hp)
    obtain ⟨hbatch, hprompt⟩ := hread _ _ _ hr
    exact ⟨hbatch, ⟨prompted, q⟩, List.getLast?_concat, rfl, hprompt⟩
  · exact absurd hp nofun
  · exact absurd hp nofun

theorem change (f : Machine → Machine) : Asking (Run.change f) := fun _ _ h => absurd h nofun

theorem ask (prompt : String) : Asking (Run.ask prompt) := by
  have hread : Asking (Run.ofRead true (·.ask prompt)) := .ofRead fun f g p h => by
    refine ⟨?_, nofun⟩
    unfold Feed.ask Feed.dry at h
    rcases ht : f.take with ⟨_ | v, k⟩ <;> rw [ht] at h
    · cases hb : k.batch <;> simp_all
    · exact absurd (Prod.mk.inj h).1 nofun
  have hawait : Asking (Run.await prompt) :=
    hread.bind fun v => (change _).bind fun _ => fun _ _ h => absurd h nofun
  rw [Run.ask_eq]
  split
  · exact (change _).bind fun _ => hawait
  · exact hawait

theorem readLine : Asking (Run.ofRead false Feed.readLine) := .ofRead fun f g p h => by
  unfold Feed.readLine at h
  rcases ht : f.take with ⟨_ | v, k⟩ <;> rw [ht] at h
  · cases hb : k.batch <;> simp_all
  · exact absurd (Prod.mk.inj h).1 nofun

theorem readAll : Asking (Run.ofRead false Feed.readAll) := .ofRead fun f g p h => by
  unfold Feed.readAll Feed.drain at h
  cases hb : f.batch
  · cases hl : f.left <;> simp_all
    simp [← h.2]
  · simp_all

theorem handle {body other : Run α} (cls : String) (hb : Asking body) (ho : Asking other) :
    Asking (Run.handle body cls other) := by
  intro m p hp
  have h := hb m p
  unfold Run.handle at hp ⊢
  split at hp <;> simp only [*] at h ⊢
  · exact absurd hp nofun
  · split at hp <;> simp only [*] at h ⊢
    · exact ho _ p hp
    · exact h hp

theorem closed : Closed True (fun {α} => Asking (α := α)) where
  pure _ _ _ h := absurd h nofun
  bind := bind
  stop hs _ p h := absurd (Except.error.inj h) (hs p)
  look hf m p h := hf m.names m.frame m.seed (fun _ _ _ => trivial) m p h
  assign _ _ := change _
  define _ _ _ _ _ := change _
  emit _ := change _
  emitError _ := change _
  tick _ := change _
  ask := ask
  readLine := readLine
  readAll _ := readAll
  handle := handle
  inFrame frame _ hx m p h := hx { m with frame } p h

end Asking

/-! ### Exceptions -/

namespace Exn

/-- The exceptions that are told of when they leave a program: errors, interrupts and exits. -/
def Regular (e : Exn) : Prop :=
  isBelow e.cls "Exception" = true ∨ e.cls = "KeyboardInterrupt" ∨ e.cls = "SystemExit"

instance (e : Exn) : Decidable e.Regular := inferInstanceAs (Decidable (_ ∨ _ ∨ _))

/-- What is sent of an exception reads as its text. -/
def Legible (e : Exn) : Prop := e.told?.map Value.messageText = some e.text

instance (e : Exn) : Decidable e.Legible := inferInstanceAs (Decidable (_ = _))

end Exn

/-! ### Fates -/

inductive Fate where
  | malformed (line : Nat)
  | ended
  | raised (e : Exn)
  | requested (prompt : String)
  | hung
  | crashed

namespace Fate

def ofResult : Except Stop Unit → Fate
  | .ok () => .ended
  | .error (.raised e) => .raised e
  | .error (.requested prompt) => .requested prompt
  | .error .hung => .hung
  | .error .crashed => .crashed

def ending : Fate → Serving.Ending Unit
  | .malformed line => .malformed line
  | .ended => .finished ()
  | .raised e => .ofStop () (.raised e)
  | .requested prompt => .suspended prompt
  | .hung => .hung
  | .crashed => .crashed

/-- The type, the message and the line of the error that is the fate of a program. -/
def error? : Fate → Option (String × String × Nat)
  | .malformed line => some ("SyntaxError", "unmatched ')'", line)
  | .raised e => if e.isCleanExit = false ∧ e.Regular then some (e.cls, e.text, e.line) else none
  | _ => none

theorem eq_requested {f : Fate} {p : String} (h : f.ending = .suspended p) : f = .requested p := by
  cases f with
  | requested q => exact congrArg _ (Serving.Ending.suspended.inj h)
  | raised e =>
      simp only [ending, Serving.Ending.ofStop] at h
      split at h
      · exact absurd h nofun
      · split at h <;> exact absurd h nofun
  | _ => exact absurd h nofun

theorem ofResult_eq_requested {r : Except Stop Unit} {p : String} (h : ofResult r = .requested p) :
    r = .error (.requested p) := by
  rcases r with (e | q | _ | _) | ⟨⟩ <;> simp_all [ofResult]

theorem ending_ofResult (r : Except Stop Unit) : (ofResult r).ending = .of () r := by
  rcases r with (e | prompt | _ | _) | ⟨⟩ <;> rfl

end Fate

/-- The fate of a program that runs on a machine, and the machine that it leaves. -/
def fate (code : String) (m : Machine) : Fate × Machine :=
  match Program.read code with
  | .error line => (.malformed line, m)
  | .ok ls => let r := runLines 1 ls m; (.ofResult r.1, r.2)

theorem runProgram_eq_fate (code : String) (m : Machine) :
    Serving.runProgram code m = ((fate code m).1.ending, (fate code m).2) := by
  unfold Serving.runProgram fate
  rcases Program.read code with line | ls
  · rfl
  · exact Prod.ext (Fate.ending_ofResult _).symm rfl

/-- A program that a request for a value has left has asked for it with its last read. -/
theorem asks_of_requested {code : String} {m : Machine} {p : String}
    (h : (fate code m).1 = .requested p) : (fate code m).2.Asks p := by
  unfold fate at h ⊢
  rcases hcode : Program.read code with line | ls <;> rw [hcode] at h
  · exact absurd h nofun
  · exact Asking.closed.runLines 1 ls (fun _ => trivial) m p (Fate.ofResult_eq_requested h)

end Rerun.Program
