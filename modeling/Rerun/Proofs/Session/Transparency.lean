import Rerun.Proofs.Program.Scaffold
import Rerun.Proofs.Sandbox.Mirrors
import Rerun.Proofs.Sandbox.Recalls

/-!
A quiet scaffold is not seen by whoever has a program executed. The interpreter tells of lines that
stand further down, and of nothing else that is different; the lines are counted from the first one
of the code again when the reply is taken over (`Request.raised_below`). So an execution comes to
the same with the scaffold and without it, however it ends (`Execution.execute_bare`).
-/

namespace Rerun

open Sandbox Op Mirror Program

variable {m : Mirror} {others : Interrupts} {s : Sandbox}

/-! ### Sandboxes that mirror themselves -/

theorem Child.twin_self (y : Child) : y.Twin id y := by
  have hfunctions : y.names.functions.map (Function.moved id) = y.names.functions := List.map_id _
  have hnames : y.names.moved id = y.names := by rw [Names.moved, hfunctions]
  have htwin : y.Twin id { y with posts := y.posts, names := y.names.moved id } := .mk y.posts
  rwa [hnames] at htwin

def Mirror.plain : Mirror := ⟨fun _ => id, fun _ _ => Eq⟩

theorem Mirror.Shows.self (hs : s.Genuine) : Mirror.plain.Shows s s :=
  .mk hs (.refl (fun _ y => y.twin_self) _) (.refl (fun _ _ => .mk rfl) _)

theorem Mirror.alike_self {α : Type} (result : Except Failure α) : Alike Eq result result := by
  cases result with
  | ok a => exact .ok rfl
  | error e => exact .error e

namespace Execution

namespace Request

variable {r : Request}

def bare (r : Request) : Request := { r with source := r.source.bare }

/-- A reply that tells of no error comes to the same outcome wherever the program stands. -/
theorem outcomeOf_bare {fields : List (String × Json)}
    (herror : (fields.lookup "error").getD .null = .null) (timeMs : Int) :
    outcomeOf r fields timeMs = outcomeOf r.bare fields timeMs := by
  unfold outcomeOf
  rw [herror]
  rfl

/-- An error is told of with the line of the code. -/
theorem raised_below (r : Request) (m : Machine) (type message : String) (line : Nat)
    (timeMs : Int) : r.raised m type message ((below r.source.prependLines).line line) timeMs =
      r.bare.raised m type message line timeMs := by
  unfold raised
  rw [codeLine_below]
  rfl

/-- Two replies that come to the same outcome, the second one for a program in its scaffold. -/
def Tells (r : Request) (j j' : Json) : Prop :=
  ∃ fields fields', j = .obj fields ∧ j' = .obj fields' ∧ consumedOf fields' = consumedOf fields ∧
    ∀ timeMs, outcomeOf r fields' timeMs = outcomeOf r.bare fields timeMs

theorem tells_of_raised (r : Request) (m : Machine) (type : String) (message : Json) (line : Nat) :
    r.Tells
      (.obj [("status", .str "error"), ("prompt", .null),
        ("error", Serving.errorJson type message (.int line)),
        ("stdout", .str (transcript m.shown)), ("stderr", .str m.errors),
        ("consumed", .int m.feed.taken)])
      (.obj [("status", .str "error"), ("prompt", .null),
        ("error", Serving.errorJson type message
          (.int ((below r.source.prependLines).line line : Nat))),
        ("stdout", .str (transcript m.shown)), ("stderr", .str m.errors),
        ("consumed", .int m.feed.taken)]) := by
  refine ⟨_, _, rfl, rfl, rfl, fun timeMs => ?_⟩
  rw [outcomeOf_raised, outcomeOf_raised, raised_below]

theorem runAnswer_below (r : Request) (ending : Serving.Ending Unit) (m : Machine) :
    Process.Alike r.Tells (Serving.runAnswer ending m)
      (Serving.runAnswer (ending.moved (below r.source.prependLines).line)
        (m.placed (below r.source.prependLines))) := by
  have hsame {fields : List (String × Json)}
      (herror : (fields.lookup "error").getD .null = .null) :
      r.Tells (.obj fields) (.obj fields) :=
    ⟨fields, fields, rfl, rfl, rfl, outcomeOf_bare herror⟩
  cases ending with
  | finished _ => exact .reply (hsame rfl)
  | suspended prompt => exact .reply (hsame rfl)
  | failed e =>
      rw [Serving.runAnswer_failed, Serving.Ending.moved, Serving.runAnswer_failed]
      exact .reply (tells_of_raised r m _ _ _)
  | malformed line => exact .reply (tells_of_raised r m _ _ _)
  | unreported => exact .refused
  | hung => exact .hung
  | crashed => exact .crashed

end Request

end Execution

/-! ### Serving a run -/

namespace Process

variable {i : Nat}

theorem asked_bare (r : Execution.Request) :
    r.asked = { r.bare.asked with code := r.source.text } := rfl

theorem endedAt_below {r : Execution.Request} (h : r.source.Quiet) (seed : Option Int) :
    Serving.attempt seed r.asked =
      ((Serving.attempt seed r.bare.asked).1.moved (below r.source.prependLines).line,
        (Serving.attempt seed r.bare.asked).2.placed (below r.source.prependLines)) := by
  have hcode : r.bare.asked = { r.bare.asked with code := r.source.code } := by
    rw [Execution.Request.asked, Execution.Request.bare, Source.text_bare]
  rw [asked_bare, Serving.attempt_text h, ← hcode]

theorem mirrors_serveRun {r : Execution.Request} (h : r.source.Quiet) :
    (serveRun i r.bare.asked).Mirrors m (serveRun i r.asked) (Ends r.Tells) := by
  refine .bind_of (.child i) fun y y' hy => ?_
  cases hy with
  | mk posts =>
      refine .bind (.view fun _ _ _ => rfl) fun missing => .ite mirrors_homeless ?_
      refine .bind (mirrors_applySeed r.seed) fun seed => ?_
      rw [endedAt_below h]
      rcases Serving.attempt seed r.bare.asked with ⟨ending, n⟩
      exact .bind (.setClock _) fun _ => .bind (mirrors_writeShown _ _) fun _ =>
        mirrors_delivered (r.runAnswer_below ending n)

theorem mirrors_serve_run {r : Execution.Request} (h : r.source.Quiet) :
    (serve i "/run" r.bare.body).Mirrors m (serve i "/run" r.body) (Ends r.Tells) := by
  refine .bind_of (.child i) fun y y' hy => ?_
  cases hy with
  | mk posts =>
      refine .ite (.pure (.fault _)) ?_
      rw [if_pos rfl, if_pos rfl, r.bare.fitBody_body, r.fitBody_body]
      dsimp only
      rw [r.bare.ofFields_body, r.ofFields_body]
      exact mirrors_serveRun h

end Process

/-! ### Executing -/

namespace Execution

variable {r : Request} {key : String} {consumed : Int → Op Unit}

theorem mirrors_settle (hconsumed : ∀ n, (consumed n).Elsewhere) (key : String) (started : Int)
    {j j' : Json} (h : r.Tells j j') : (settle consumed r.bare key started j).Mirrors m
      (settle consumed r key started j') Eq := by
  obtain ⟨fields, fields', rfl, rfl, hread, houtcome⟩ := h
  unfold settle
  dsimp only
  rw [hread]
  refine .bind (.ofExcept ?_) fun n => .bind (.of_elsewhere (hconsumed n)) fun _ =>
    .bind (.elapsedMs started) fun timeMs => ?_
  · exact alike_self _
  · rw [houtcome]
    refine .bind (.ofExcept (alike_self _)) fun outcome => ?_
    exact .bind (Registry.mirrors_note key _) fun _ => .pure rfl

/-- On a session a program comes to the same with its scaffold and without it. -/
theorem mirrors_executeLocal (h : r.source.Quiet) (hconsumed : ∀ n, (consumed n).Elsewhere)
    (key : String) : (executeLocal consumed r.bare key).Mirrors m
      (executeLocal consumed r key) Eq := by
  have hfinite : r.bare.body.hasNonFinite = r.body.hasNonFinite :=
    r.bare.hasNonFinite_body.trans r.hasNonFinite_body.symm
  have hinputs : Process.inputsKey r.body = Process.inputsKey r.bare.body := rfl
  have hholding : (Registry.holding key fun h =>
    Interpreter.execute h r.bare.body r.timeout).Mirrors
      m (Registry.holding key fun h => Interpreter.execute h r.body r.timeout) r.Tells :=
    fun others ho s s' hs => Registry.agree_holding ho hs fun _ _ _ _ _ ht =>
      Interpreter.agree_post ho ht hinputs hfinite (fun _ _ _ _ => Process.mirrors_serve_run h) _
  refine .bind .now fun started => .bind_of hholding.outcome fun result result' hresult => ?_
  cases hresult with
  | ok htells => exact mirrors_settle hconsumed key started htells
  | error e => exact .ite (.bind (.elapsedMs started) fun _ => .pure rfl) (.fail e)

/-- A program comes to the same with its scaffold and without it, unless it is sent to a judge. -/
theorem execute_bare (h : r.source.Quiet) (hconsumed : ∀ n, (consumed n).Elsewhere)
    (ho : others.Absent) (hs : s.Genuine)
    (hlocal : ∀ e t, Registry.acquire Contexts.onSweep (some r.key) others s = (.error e, t) →
      e.kind = .initialization → s.setup.remote = none) :
    (execute Contexts.onSweep consumed r others s).1 =
      (execute Contexts.onSweep consumed r.bare others s).1 := by
  have hacquire := Registry.mirrors_acquire (some r.key) ho (Shows.self hs)
  have hrecalls := (Registry.recalls_acquire (some r.key)).holds others s
  obtain ⟨-, hstate⟩ := hacquire
  rcases hresult : Registry.acquire Contexts.onSweep (some r.key) others s with ⟨e | key, t⟩ <;>
    rw [hresult] at hstate hrecalls
  · -- Without a session there is no program that anybody runs.
    have hnone (hkind : e.kind = .initialization) : t.setup.remote = none :=
      (congrArg _ hrecalls.setup).trans (hlocal e t hresult hkind)
    have hbare : Registry.acquire Contexts.onSweep (some r.bare.key) others s = (.error e, t) :=
      hresult
    rw [execute_of_error hresult hnone, execute_of_error hbare hnone]
  · have hbare : Registry.acquire Contexts.onSweep (some r.bare.key) others s = (.ok key, t) :=
      hresult
    rw [execute_of_acquired hresult, execute_of_acquired hbare]
    exact (alike_eq (mirrors_executeLocal h hconsumed key ho hstate).result).symm

end Execution

end Rerun
