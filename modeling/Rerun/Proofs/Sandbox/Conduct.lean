import Rerun.Proofs.Sandbox.Reach
import Rerun.Proofs.Sandbox.Steps

/-!
What the commands of clients come to. Each consists of steps, one after the other, with the steps of
others in between while requests are on their way; and a scope that a command opens on a session is
closed before the command is over. So what holds along steps holds along commands, at rest and in
the middle of them.
-/

namespace Rerun

open Sandbox Op

variable {s t u : Sandbox} {others : Interrupts}

/-- A state that is brought about by steps, after which the same scopes are open as before. -/
def Sandbox.StepsTo (s t : Sandbox) : Prop :=
  ∀ scopes requests, ∃ requests', Steps ⟨s, scopes, requests⟩ ⟨t, scopes, requests'⟩

namespace Sandbox.StepsTo

theorem refl (s : Sandbox) : s.StepsTo s := fun _ requests => ⟨requests, .refl⟩

theorem trans (h : s.StepsTo t) (h' : t.StepsTo u) : s.StepsTo u := by
  intro scopes requests
  obtain ⟨requests', hsteps⟩ := h scopes requests
  obtain ⟨requests'', hsteps'⟩ := h' scopes requests'
  exact ⟨requests'', hsteps.trans hsteps'⟩

theorem of_step (h : ∀ scopes requests, Step ⟨s, scopes, requests⟩ ⟨t, scopes, requests⟩) :
    s.StepsTo t :=
  fun scopes requests => ⟨requests, .single (h scopes requests)⟩

theorem of_drifts (h : s.Drifts t) : s.StepsTo t := of_step fun _ _ => .drift h

theorem sane (h : s.StepsTo t) (hs : s.Sane) : t.Sane := by
  obtain ⟨requests, hsteps⟩ := h [] []
  exact Moves.sane (hsteps.moves hs) hs

end Sandbox.StepsTo

/-- Other clients whose commands come to steps. -/
def Interrupts.Stepwise (others : Interrupts) : Prop :=
  ∀ (commands : List Command) (s : Sandbox), s.Sane → s.StepsTo (others commands s)

namespace Op

variable {α β : Type}

/-- An operation that comes to steps, when what others do comes to steps. -/
def Stepwise (x : Op α) : Prop :=
  ∀ ⦃others : Interrupts⦄, others.Stepwise → ∀ s : Sandbox, s.Sane → s.StepsTo (x others s).2

namespace Stepwise

theorem of_drifts {x : Op α} (h : x.Drifts) : Stepwise x :=
  fun others _ s _ => .of_drifts (h others s)

theorem of_passes {x : Op α} (h : x.Passes) : Stepwise x := of_drifts (.of_passes h)

theorem of_step {x : Op α} (h : ∀ (others : Interrupts) (s : Sandbox) scopes requests,
    Step ⟨s, scopes, requests⟩ ⟨(x others s).2, scopes, requests⟩) : Stepwise x :=
  fun others _ s _ => .of_step (h others s)

theorem pure (a : α) : Stepwise (pure a) := of_passes (.pure a)

theorem need (find : Sandbox → Option α) : Stepwise (Sandbox.need find) := of_passes (.need find)

theorem interleave (commands : List Command) : Stepwise (Op.interleave commands) :=
  fun _ ho s hs => ho commands s hs

theorem bind {x : Op α} {f : α → Op β} (hx : Stepwise x) (hf : ∀ a, Stepwise (f a)) :
    Stepwise (x >>= f) := by
  intro others ho s hs
  have h := hx ho s hs
  rw [bind_apply]
  rcases hr : x others s with ⟨e | a, t⟩ <;> rw [hr] at h
  · exact h
  · exact h.trans (hf a ho t (h.sane hs))

theorem outcome {x : Op α} (hx : Stepwise x) : Stepwise (Op.outcome x) :=
  fun _ ho s hs => hx ho s hs

theorem rescue {x : Op α} {other : Failure → Op α} (hx : Stepwise x)
    (hother : ∀ e, Stepwise (other e)) : Stepwise (Op.rescue x other) := by
  intro others ho s hs
  have h := hx ho s hs
  unfold Op.rescue
  rcases hr : x others s with ⟨e | a, t⟩ <;> rw [hr] at h
  · exact h.trans (hother e ho t (h.sane hs))
  · exact h

theorem ensuring {x : Op α} {after : Op Unit} (hx : Stepwise x) (hafter : Stepwise after) :
    Stepwise (Op.ensuring x after) := by
  intro others ho s hs
  have h := hx ho s hs
  have h' := h.trans (hafter ho _ (h.sane hs))
  unfold Op.ensuring
  dsimp only
  rcases hr : after others (x others s).2 with ⟨_ | _, t⟩ <;> rw [hr] at h' <;> exact h'

end Stepwise

theorem composes_stepwise : Composes fun x => x.Stepwise :=
  ⟨⟨fun h => .of_passes (.of_still h), .bind⟩, .of_passes, .interleave, .rescue⟩

theorem Requests.stepwise {x : Op α} (h : x.Requests) :
    x.Stepwise := h.of_composes composes_stepwise

end Op

/-! ### Sessions -/

namespace Registry

theorem stepwise_reset (key : String) : (reset key).Stepwise :=
  .of_step fun others s scopes requests => .reset ⟨s, scopes, requests⟩ others key

theorem stepwise_note (key : String) (entry : Json) : (note key entry).Stepwise :=
  .of_step fun others s scopes requests => .record ⟨s, scopes, requests⟩ others key entry

theorem stepwise_acquire (key : Option String) : (acquire Contexts.onSweep key).Stepwise :=
  .of_step fun others s scopes requests => .acquire ⟨s, scopes, requests⟩ others key

theorem hold_eq_error {key : String} {e : Failure} (h : hold key others s = (.error e, t)) :
    t = s := by
  cases hr : s.sessions.lookup key with
  | none =>
      rw [hold_of_none hr] at h
      exact (Prod.mk.inj h).2.symm
  | some r =>
      cases hx : s.records[r]? with
      | none =>
          simp [hold, bind_apply, get, find?, hr, record, Sandbox.need, hx] at h
          exact h.2.symm
      | some x =>
          cases hl : x.locked with
          | true =>
              rw [hold_of_locked hr hx hl] at h
              exact (Prod.mk.inj h).2.symm
          | false =>
              rw [does_hold hr hx hl] at h
              exact absurd (Prod.mk.inj h).1 (by simp)

theorem snd_release {α : Type} (key : String) (r : Nat) (how : Departure) (others : Interrupts)
    (s : Sandbox) (x : Op α) (hx : ∀ t, (x others t).2 = t) :
    ((do release key r how; x) others s).2 = (release key r how others s).2 := by
  rw [bind_apply]
  rcases release key r how others s with ⟨e | _, t⟩
  · rfl
  · exact hx t

/-- A session is held while its interpreter is used, and let go of however the use ends. -/
theorem stepwise_holding {α : Type} {use : Nat → Op α} (huse : ∀ h, (use h).Stepwise)
    (key : String) : (holding key use).Stepwise := by
  intro others ho s hs scopes requests
  rw [holding, bind_apply]
  rcases hhold : hold key others s with ⟨e | r, u⟩
  · obtain rfl := hold_eq_error hhold
    exact ⟨requests, .refl⟩
  · have henter : Step ⟨s, scopes, requests⟩ ⟨u, (key, r) :: scopes, requests⟩ := .enter hhold
    obtain ⟨x, hr, hx, hfree, rfl⟩ := hold_eq_ok hhold
    have hheld : (record r).Does (held s r) { x with state := .busy, locked := true } (held s r) :=
      does_need (Table.getElem?_modify_eq_some.mpr ⟨x, hx, by rw [if_pos rfl]⟩)
    obtain ⟨requests', hsteps⟩ := huse x.handle ho (held s r) (sane_held hs r) ((key, r) :: scopes)
      requests
    have hleave (v : Sandbox) (how : Departure) : Step ⟨v, (key, r) :: scopes, requests'⟩
        ⟨(release key r how others v).2, scopes, requests'⟩ := by
      have h := Step.leave (a := ⟨v, (key, r) :: scopes, requests'⟩) others how List.mem_cons_self
      rwa [List.erase_cons_head] at h
    refine ⟨requests', (Relation.ReflTransGen.head henter hsteps).tail ?_⟩
    -- However the use has ended, the scope is left in one step.
    dsimp only
    rw [hheld.step, bind_apply, Op.outcome]
    rcases use x.handle others (held s r) with ⟨e | a, v⟩
    · have hlast := snd_release key r (departure e) others v (Op.fail e : Op α) fun _ => rfl
      exact hlast ▸ hleave v (departure e)
    · have hlast := snd_release key r .normal others v (Pure.pure a : Op α) fun _ => rfl
      exact hlast ▸ hleave v .normal

theorem stepwise_post (key path : String) (body : Json) (timeout : Binary64) :
    (holding key fun h => Interpreter.post h path body timeout).Stepwise :=
  stepwise_holding (fun h => (Op.pervades_requests.post h path body timeout).stepwise) key

end Registry

/-! ### Executions -/

namespace Execution

theorem stepwise_execute {consumed : Int → Op Unit} (hconsumed : ∀ n, (consumed n).Drifts)
    (r : Request) : (execute Contexts.onSweep consumed r).Stepwise := by
  have hP := composes_stepwise.toChains
  refine hP.execute (.outcome (Registry.stepwise_acquire _)) (fun key => ?_)
    fun remote maxWait started =>
      (Op.pervades_requests.executeRemote remote maxWait r started).stepwise
  exact hP.executeLocal (Registry.stepwise_post key _ _ _).outcome
    (hP.settle (fun n => .of_drifts (hconsumed n))
      fun entry _ => Registry.stepwise_note key (.obj entry))

end Execution

/-! ### Runs and contexts -/

namespace Run

theorem drifts_markConsumed (i : Nat) (n : Int) : (markConsumed i n).Drifts :=
  .setRun i fun _ => ⟨rfl, rfl, rfl, rfl, rfl⟩

theorem stepwise_undergo (i : Nat) (q : Execution.Request) (echo : Option Json) :
    (undergo i q echo).Stepwise :=
  .bind (Execution.stepwise_execute (drifts_markConsumed i) q) fun _ =>
    .bind (.of_drifts (.setRun i fun _ => ⟨rfl, rfl, rfl, rfl, rfl⟩)) fun _ => .pure _

theorem stepwise_conclude (i : Nat) (q : Execution.Request) (echo : Option Json) :
    (conclude i q echo).Stepwise :=
  .ensuring (stepwise_undergo i q echo)
    (.of_step fun _ s scopes requests => .land ⟨s, scopes, requests⟩ i)

end Run

namespace Contexts

/-- A submission takes a run for an attempt at once, and then it makes the attempt. -/
theorem stepwise_submit (c : String) (source : Source) (prior : List Json)
    (newest : Option Json) : (submit c source prior newest).Stepwise := by
  intro others ho s hs
  obtain ⟨res, t, hembarks, hrest⟩ := embark_embarks hs c source prior newest
  obtain ⟨hembark, hsubmit⟩ := hrest others
  rw [hsubmit]
  cases res with
  | error e => exact .of_step fun scopes requests => .refuse (a := ⟨s, scopes, requests⟩) hembark
  | ok taken =>
      obtain ⟨i, q⟩ := taken
      intro scopes requests
      -- The run is taken in one step, and what is left is the attempt at it.
      have hstep : Step ⟨s, scopes, requests⟩ ⟨t, scopes, q :: requests⟩ := .embark hembark
      have ht : t.Sane := Moves.sane (hstep.moves hs) hs
      obtain ⟨requests', hsteps⟩ :=
        Run.stepwise_conclude i q newest ho t ht scopes (q :: requests)
      exact ⟨requests', .head hstep hsteps⟩

theorem stepwise_abandon (c : String) : (abandon c).Stepwise :=
  .of_step fun others s scopes requests => .abandon ⟨s, scopes, requests⟩ others c

theorem drifts_challengeOf (n : String) : (challengeOf n).Drifts := by
  refine .bind (.view _) fun found => ?_
  split
  · exact .pure _
  · refine .bind (.view _) fun ms => .bind (.ofExcept _) fun timeout => ?_
    intro others s
    exact { Sandbox.Drifts.refl s with sane := fun hs => hs.addChallenge n rfl }

end Contexts

/-! ### Challenges -/

namespace Challenge

theorem stepwise_setChallenge (i : Nat) {f : Challenge → Challenge} (hf : ∀ x, (f x).key = x.key) :
    (Sandbox.setChallenge i f).Stepwise :=
  .of_drifts (.setChallenge i hf)

theorem stepwise_teardown (i : Nat) : (teardown i).Stepwise :=
  .bind (stepwise_setChallenge i fun _ => rfl) fun _ => .bind (.need _) fun _ =>
    Registry.stepwise_reset _

theorem stepwise_load (i : Nat) (source : Source) : (load Contexts.onSweep i source).Stepwise :=
  composes_stepwise.load (stepwise_setChallenge i) Registry.stepwise_post (stepwise_teardown i)
    fun huse => .bind (.need _) fun c => .bind (Registry.stepwise_acquire _) fun _ => huse c

theorem stepwise_invoke (i : Nat) (function : String) (args : List Json) :
    (invoke i function args).Stepwise :=
  composes_stepwise.invoke (stepwise_setChallenge i) Registry.stepwise_post

end Challenge

/-! ### Gradings -/

namespace Grading

theorem stepwise_one (r : Request) : (one Contexts.onSweep r).Stepwise :=
  composes_stepwise.one (.of_drifts .drawId) fun _ q _ => .ensuring
    (.outcome (Execution.stepwise_execute (fun _ => .pure ()) q)) (Registry.stepwise_reset q.key)

end Grading

/-! ### Commands -/

theorem Conversation.pervades_stepwise : Conversation.Pervades fun x => x.Stepwise where
  toComposes := composes_stepwise
  queues _ := .of_drifts (.change fun s =>
    { Sandbox.Drifts.refl s with sane := fun hs => { hs with } })
  dropChallenge n := .of_drifts (.change fun s => .dropChallenge s n)
  reset := Registry.stepwise_reset
  note := Registry.stepwise_note
  abandon := Contexts.stepwise_abandon
  challengeOf n := .of_drifts (Contexts.drifts_challengeOf n)
  teardown := Challenge.stepwise_teardown
  load := Challenge.stepwise_load
  invoke := Challenge.stepwise_invoke
  one := Grading.stepwise_one

/-- Commands of the service, the engine and the registry, apart from holds that outlast them, from
runs and handles that the engine knows nothing of, and from files that are written over. -/
def Command.isPlain : Command → Bool
  | .runNew .. | .runStart .. | .runResume .. | .runCancel .. | .seedTable .. => false
  | .hold .. | .release .. | .writeMetadata .. | .handleNew .. | .handle .. => false
  | _ => true

namespace Conversation

/-- The queues of single executions are none of the business of runs and sessions. -/
theorem drifts_markConsumed (i : Nat) (n : Int) : (markConsumed i n).Drifts :=
  .change fun s => { Sandbox.Drifts.refl s with sane := fun hs => { hs with } }

theorem stepwise_perform {c : Command} (h : c.isPlain = true) : (perform c).Stepwise := by
  have hP := pervades_stepwise
  cases c with
  | submit c source prior newest =>
      exact hP.gives (hP.map _ (Contexts.stepwise_submit c source prior newest))
  | execute =>
      exact hP.gives (hP.execute fun i => Execution.stepwise_execute (drifts_markConsumed i) _)
  | acquire key => exact hP.gives (hP.map _ (Registry.stepwise_acquire key))
  | http => exact hP.map _ (hP.answer fun c _ => Contexts.stepwise_submit c)
  | runNew | runStart | runResume | runCancel | seedTable => exact absurd h nofun
  | hold | release | writeMetadata | handleNew | handle => exact absurd h nofun
  | _ => exact hP.perform rfl

theorem stepsTo_overheard (s : Sandbox) (responses : List Response) :
    s.StepsTo { s with overheard := responses } :=
  .of_drifts { Sandbox.Drifts.refl s with sane := fun hs => { hs with } }

theorem stepsTo_respond {c : Command} (h : c.isPlain = true) (ho : others.Stepwise)
    (hs : s.Sane) : s.StepsTo (respond c others s).2 := by
  have hs' : Sane { s with overheard := [] } := { hs with }
  exact (stepsTo_overheard s []).trans ((stepwise_perform h ho _ hs').trans
    (stepsTo_overheard _ s.overheard))

end Conversation

/-- What other clients do of the commands that are plain, to a depth. -/
def Sandbox.plain : (depth : Nat) → Interrupts
  | 0 => fun _ s => s
  | depth + 1 => fun commands s =>
    (commands.filter (·.isPlain)).foldl (fun s c =>
      let (r, s) := Conversation.respond c (plain depth) s
      s.overhear r) s

/-- Plain commands, whatever plain commands others give meanwhile, come to steps. -/
theorem Sandbox.stepwise_plain (depth : Nat) : (plain depth).Stepwise := by
  induction depth with
  | zero => exact fun _ s _ => .refl s
  | succ depth ih =>
      intro commands s hs
      refine List.foldlRecOn _ _ (.refl s) fun t ht c hc => ?_
      have hnext := Conversation.stepsTo_respond (List.mem_filter.mp hc).2 ih (ht.sane hs)
      exact (ht.trans hnext).trans (Conversation.stepsTo_overheard _ _)

end Rerun
