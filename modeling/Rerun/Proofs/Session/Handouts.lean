import Mathlib.Algebra.GroupWithZero.Nat
import Rerun.Proofs.Remote.Input
import Rerun.Proofs.Sandbox.FailedStarts
import Rerun.Proofs.Sandbox.Turns

/-!
A program is handed out once. One execution asks a process for at most one run, or submits the
program to the judge at most once, and never both: whatever becomes of a run, the program is not run
again for it. It is submitted only when a judge is there and two starts of an interpreter, one after
the other, have failed.
-/

namespace Rerun

open Sandbox Op

variable {α : Type} {s t : Sandbox} {others : Interrupts}

/-! ### Requests to processes -/

theorem Table.sum_map_modify_le {g : α → Nat} {f : α → α} {n : Nat} (hf : ∀ x, g (f x) ≤ g x + n)
    (xs : List α) (i : Nat) : ((xs.modify i f).map g).sum ≤ (xs.map g).sum + n := by
  induction xs generalizing i with
  | nil => simp
  | cons x xs ih =>
      cases i with
      | zero =>
          have := hf x
          simp only [List.modify_zero_cons, List.map_cons, List.sum_cons]
          omega
      | succ i =>
          have := ih i
          simp only [List.modify_succ_cons, List.map_cons, List.sum_cons]
          omega

namespace Process

theorem serves_sameHandouts : Serves fun x => x.Along SameHandouts where
  toChains := Along.chains
  take i _ := .change fun s => ⟨s.runsAsked_modify i fun _ => rfl, rfl⟩
  elapse _ := .change fun _ => ⟨rfl, rfl⟩
  learn i _ := .change fun s => ⟨s.runsAsked_modify i fun _ => rfl, rfl⟩
  crash i := .change fun s => ⟨s.runsAsked_modify i fun _ => rfl, rfl⟩
  seed _ := .change fun _ => ⟨rfl, rfl⟩
  shown _ _ := .change fun _ => ⟨rfl, rfl⟩

theorem handsOut_post (i : Nat) (path : String) (body : Json) (s : Sandbox) :
    (post i path body).HandsOut 1 0 s := by
  have hnoted :
      (setChild i fun c => { c with posts := c.posts ++ [(path, body)] }).HandsOut 1 0 s :=
    .alone (.change fun _ => trivial)
      (fun _ => Table.sum_map_modify_le (fun c => by
        rw [List.countP_append]
        exact Nat.add_le_add_left List.countP_le_length _) _ i)
      fun _ => Nat.le_refl _
  have harrive : (arrive i path body).HandsOut 1 0 s := by
    refine hnoted.bind_quiet fun _ t =>
      .quiet_bind (.of_recalls (answers_recalls.nextScripted i _ _) t) fun r t =>
      .quiet_bind (.of_recalls (.setClock _) t) ?_
    exact fun _ t => .quiet_bind (.interleave r.during t) fun _ t => .of_along (.pure r) t
  rw [post]
  exact harrive.bind_quiet fun a t =>
    .of_along (serves_sameHandouts.react i path body a) t

end Process

/-! ### Using a session -/

theorem Interpreter.handsOut_execute (h : Nat) (request : Json) (timeout : Binary64) (s : Sandbox) :
    (execute h request timeout).HandsOut 1 0 s := by
  refine .quiet_bind (.of_recalls (chains_addressee Along.chains h request) s) fun c t => ?_
  exact (Process.handsOut_post c _ _ t).bind_quiet fun ended t =>
    .of_recalls (recalls_heard h "/run" timeout ended) t

namespace Registry

theorem handsOut_holding {a b : Nat} (key : String) {use : Nat → Op α}
    (huse : ∀ h t, (use h).HandsOut a b t) (s : Sandbox) : (holding key use).HandsOut a b s := by
  refine .quiet_bind (.of_recalls (pervades_recalls.hold key) s) fun r t => ?_
  refine .quiet_bind (.of_recalls (.need _) t) fun info t => ?_
  exact (huse info.handle t).outcome.bind_quiet fun result t =>
    .of_recalls (Along.chains.letGo (pervades_recalls.release key r) result) t

theorem holding_of_locked {key : String} {r : Nat} {x : Record}
    (hr : s.sessions.lookup key = some r) (hx : s.records[r]? = some x) (hlocked : x.locked = true)
    (use : Nat → Op α) : holding key use others s = (.error (.sessionBusy key), s) := by
  have hget : get key others s = (.ok r, s) := by
    unfold get find?
    rw [hr]
  have hrecord : (record r).Does s x s := does_need hx
  simp [holding, hold, bind_apply, hget, hrecord others, hlocked, Op.fail]

end Registry

namespace Execution

variable {consumed : Int → Op Unit}

theorem handsOut_executeLocal (hconsumed : ∀ n, (consumed n).Recalls) (r : Request) (key : String)
    (s : Sandbox) : (executeLocal consumed r key).HandsOut 1 0 s := by
  refine .quiet_bind (.of_recalls (.view _) s) fun started t => ?_
  refine .bind_quiet (.outcome (Registry.handsOut_holding key (fun h t =>
    Interpreter.handsOut_execute h _ _ t) t)) fun result t => ?_
  exact .of_recalls (Along.chains.concluded (Along.chains.settle hconsumed
    (fun _ _ => Registry.pervades_recalls.note _ _) started) result) t

theorem handsOut_executeLocal_of_locked {key : String} {j : Nat} {x : Record}
    (hr : s.sessions.lookup key = some j) (hx : s.records[j]? = some x) (hlocked : x.locked = true)
    (r : Request) :
    (executeLocal consumed r key).HandsOut 0 0 s := by
  have heq (others : Interrupts) : executeLocal consumed r key others s =
      (Op.fail (.sessionBusy key) : Op Outcome) others s :=
    executeLocal_eq_error (Registry.holding_of_locked hr hx hlocked _) rfl
  exact ⟨.ends (.error (.sessionBusy key)) s, heq, .ends (Nat.le_refl _) (Nat.le_refl _)⟩

end Execution

/-! ### Requests to the judge -/

namespace RemoteClient

theorem sameHandouts_nextScripted : nextScripted.Along SameHandouts where
  deaf _ _ s := by
    unfold nextScripted
    split <;> rfl
  holds others s := by
    unfold nextScripted
    split
    · exact ⟨rfl, rfl⟩
    · exact ⟨rfl, rfl⟩

theorem handsOut_request (c : RemoteClient) (method path query : String) (body : Json)
    (s : Sandbox) : (c.request method path query body).HandsOut 0
      (if method = "POST" then 1 else 0) s := by
  have hopen : c.ensureOpen.Recalls := .bind (.view _) fun _ => .ite (.fail _) (.pure _)
  refine .quiet_bind (.of_recalls hopen s) fun _ t => ?_
  refine .bind_quiet (.alone (.change fun _ => trivial) (fun _ => Nat.le_refl _) fun _ => ?_) ?_
  · simp [Op.change, Sandbox.submissions, List.countP_append, List.countP_cons]
  refine fun _ t => .quiet_bind (.of_along sameHandouts_nextScripted t) fun r t => ?_
  refine .quiet_bind (.of_recalls (.setClock _) t) fun _ t => ?_
  refine .quiet_bind (.interleave r.during t) fun _ t => .of_recalls ?_ t
  split
  · exact .fail _
  · exact .fail _
  · exact .fail _
  · exact .ite (.rescue (Along.chains.readBody _) fun _ => .fail _) (.fail _)

theorem handsOut_submit (c : RemoteClient) (source stdin : String) (expected : Option String)
    (s : Sandbox) : (c.submit source stdin expected).HandsOut 0 1 s := by
  refine .bind_quiet (handsOut_request c "POST" _ _ _ s) fun payload t => .of_recalls ?_ t
  split
  · exact .ite (.fail _) (.pure _)
  · exact .fail _

theorem handsOut_poll (c : RemoteClient) (token : Json) (s : Sandbox) :
    (c.poll token).HandsOut 0 0 s := by
  refine .ite (.fail _ s) (.bind_quiet (handsOut_request c "GET" _ _ _ s) fun payload t =>
    .of_recalls ?_ t)
  split
  · exact .pure _
  · exact .fail _

theorem recalls_wait (cancel : Cancel) (seconds : Binary64) : (cancel.wait seconds).Recalls where
  deaf _ _ _ := rfl
  holds others s := by
    unfold Cancel.wait
    dsimp only
    split
    · split
      · exact { Sandbox.Recalls.refl s with }
      · exact { Sandbox.Recalls.refl s with }
    · exact { Sandbox.Recalls.refl s with }

theorem handsOut_pollUntil (c : RemoteClient) (token : Json) (deadline : Binary64)
    (cancel : Cancel) (fuel : Nat) (s : Sandbox) :
    (c.pollUntil token deadline cancel fuel).HandsOut 0 0 s := by
  induction fuel generalizing s with
  | zero => exact .of_recalls (.pure _) s
  | succ fuel ih =>
      refine .quiet_bind (.of_recalls (.view _) s) fun now t => .ite (.of_recalls (.pure _) t) ?_
      refine .quiet_bind (.of_recalls (.view _) t) fun set t => .ite (.of_recalls (.pure _) t) ?_
      refine .quiet_bind (handsOut_poll c token t) fun r t => .ite (.of_recalls (.pure _) t) ?_
      exact .quiet_bind (.of_recalls (recalls_wait cancel _) t) fun set t =>
        .ite (.of_recalls (.pure _) t) (ih t)

theorem handsOut_execute (c : RemoteClient) (source stdin : String) (expected : Option String)
    (maxWait : Binary64) (cancel : Cancel) (s : Sandbox) :
    (c.execute source stdin expected maxWait cancel).HandsOut 0 1 s := by
  refine .bind_quiet (handsOut_submit c _ _ _ s) fun token t => ?_
  refine .quiet_bind (.of_recalls (.view _) t) fun now t => ?_
  refine .quiet_bind (.of_recalls (.view _) t) fun fuel t => ?_
  refine .quiet_bind (handsOut_pollUntil c token _ cancel fuel t) fun polled t => .of_recalls ?_ t
  split
  · exact .pure _
  · exact .pure _
  · exact .pure _
  · split
    · exact .pure _
    · exact .fail _

end RemoteClient

theorem Execution.handsOut_executeRemote (remote : RemoteClient) (maxWait : Binary64) (r : Request)
    (started : Int) (s : Sandbox) : (executeRemote remote maxWait r started).HandsOut 0 1 s := by
  refine .bind_quiet (remote.handsOut_execute _ _ _ _ _ s) fun response t => .of_recalls ?_ t
  split
  · exact .bind (Along.chains.elapsedMs _) fun _ => .pure _
  · exact .bind (Along.chains.elapsedMs _) fun _ => .bind (.ofExcept _) fun _ => .pure _

/-! ### Executions -/

namespace Execution

open Registry

/-- What a client hands out itself in the turns of an execution that starts in a state. -/
structure HandsOutOnce (r : Request) (s : Sandbox) (c : Turns Outcome) (runs submissions : Nat) :
    Prop where
  counted : c.HandsOut runs submissions s
  once : runs + submissions ≤ 1
  /-- A program is submitted when there is a judge and no interpreter could be started, at the
  second attempt either. -/
  submitted : 0 < submissions → (∃ remote, s.setup.remote = some remote) ∧ ∀ others, ∃ e t k u,
    acquire Contexts.onSweep (some r.key) others s = (.error e, t) ∧
      (r.key ≠ "" → k = r.key) ∧ NotStarted k others u t e
  /-- Once there is a session, the program is not submitted, whatever becomes of the run. -/
  kept {others : Interrupts} {key : String} {t : Sandbox} :
    acquire Contexts.onSweep (some r.key) others s = (.ok key, t) → submissions = 0
  /-- A busy session is left alone. -/
  busy {others : Interrupts} {key : String} {t : Sandbox} {j : Nat} {x : Record} :
    acquire Contexts.onSweep (some r.key) others s = (.ok key, t) →
      t.sessions.lookup key = some j → t.records[j]? = some x → x.locked = true →
      runs = 0 ∧ submissions = 0

variable {consumed : Int → Op Unit} {r : Request} {key : String} {e : Failure}

/-- Nobody has a part in getting a session, so whoever the others are, it comes to the same. -/
theorem acquire_eq_iff {others' : Interrupts} {result : Except Failure String}
    (h : acquire Contexts.onSweep (some r.key) others s = (result, t))
    {result' : Except Failure String} {t' : Sandbox} :
    acquire Contexts.onSweep (some r.key) others' s = (result', t') ↔ result' = result ∧
    t' = t := by
  rw [(recalls_acquire (some r.key)).deaf others' others s, h, Prod.mk.injEq, eq_comm,
    eq_comm (a := t)]

theorem handsOutOnce_of_acquired (hconsumed : ∀ n, (consumed n).Recalls)
    (hacquire : acquire Contexts.onSweep (some r.key) others s = (.ok key, t)) :
    ∃ c runs submissions, (execute Contexts.onSweep consumed r).Unfolds s c ∧
      HandsOutOnce r s c runs submissions := by
  have ht : s.Recalls t := by
    have h := (recalls_acquire (some r.key)).holds others s
    rwa [hacquire] at h
  have hexecute (others' : Interrupts) : execute Contexts.onSweep consumed r others' s =
      executeLocal consumed r key others' t :=
    execute_of_acquired ((acquire_eq_iff hacquire).mpr ⟨rfl, rfl⟩)
  have hkey {others' : Interrupts} {key' : String} {t' : Sandbox}
      (h : acquire Contexts.onSweep (some r.key) others' s = (.ok key', t')) :
      key' = key ∧ t' = t := by
    obtain ⟨hok, ht⟩ := (acquire_eq_iff hacquire).mp h
    exact ⟨Except.ok.inj hok, ht⟩
  by_cases hlocked : ∃ j x, t.sessions.lookup key = some j ∧ t.records[j]? = some x ∧
      x.locked = true
  · obtain ⟨j, x, hj, hx, hlocked⟩ := hlocked
    obtain ⟨c, hc, hcount⟩ := handsOut_executeLocal_of_locked hj hx hlocked r
    refine ⟨c, 0, 0, fun others' => (hexecute others').trans (hc others'), ?_⟩
    exact { counted := hcount.of_recalls ht, once := Nat.zero_le 1, submitted := nofun,
            kept := fun _ => rfl, busy := fun _ _ _ _ => ⟨rfl, rfl⟩ }
  · obtain ⟨c, hc, hcount⟩ := handsOut_executeLocal hconsumed r key t
    refine ⟨c, 1, 0, fun others' => (hexecute others').trans (hc others'), ?_⟩
    refine { counted := hcount.of_recalls ht, once := Nat.le_refl 1, submitted := nofun,
             kept := fun _ => rfl, busy := fun h hj hx hl => ?_ }
    obtain ⟨rfl, rfl⟩ := hkey h
    exact absurd ⟨_, _, hj, hx, hl⟩ hlocked

theorem handsOutOnce_of_not_acquired (consumed : Int → Op Unit)
    (hacquire : acquire Contexts.onSweep (some r.key) others s = (.error e, t)) :
    ∃ c runs submissions, (execute Contexts.onSweep consumed r).Unfolds s c ∧
      HandsOutOnce r s c runs submissions := by
  have ht : s.Recalls t := by
    have h := (recalls_acquire (some r.key)).holds others s
    rwa [hacquire] at h
  have hacquire' (others' : Interrupts) :
      acquire Contexts.onSweep (some r.key) others' s = (.error e, t) :=
    (acquire_eq_iff hacquire).mpr ⟨rfl, rfl⟩
  have hnone {others' : Interrupts} {key' : String} {t' : Sandbox}
      (h : acquire Contexts.onSweep (some r.key) others' s = (.ok key', t')) : False :=
    absurd ((acquire_eq_iff hacquire).mp h).1 nofun
  by_cases hsubmits : (∃ remote, t.setup.remote = some remote) ∧ e.kind = .initialization
  · obtain ⟨⟨remote, hremote⟩, hkind⟩ := hsubmits
    obtain ⟨c, hc, hcount⟩ :=
      handsOut_executeRemote remote t.setup.remoteMaxWait r t.clock t
    refine ⟨c, 0, 1, fun others' => ?_, ?_⟩
    · rw [execute_of_judge (hacquire' others') hkind hremote, hc others']
    · refine { counted := hcount.of_recalls ht, once := Nat.le_refl 1, submitted := fun _ => ?_,
               kept := fun h => (hnone h).elim, busy := fun h => (hnone h).elim }
      refine ⟨⟨remote, ht.setup ▸ hremote⟩, fun others' => ?_⟩
      obtain ⟨k, u, hk, hnot⟩ := acquire_failed (hacquire' others') hkind
      exact ⟨e, t, k, u, hacquire' others', hk, hnot⟩
  · have hlocal (hkind : e.kind = .initialization) : t.setup.remote = none :=
      Option.eq_none_iff_forall_ne_some.mpr fun remote hremote =>
        hsubmits ⟨⟨remote, hremote⟩, hkind⟩
    refine ⟨.ends (.error e) t, 0, 0,
      fun others' => execute_of_error (hacquire' others') hlocal, ?_⟩
    · exact { counted := .of_recalls (.ends (Nat.le_refl _) (Nat.le_refl _)) ht
              once := Nat.zero_le 1, submitted := nofun, kept := fun _ => rfl
              busy := fun _ _ _ _ => ⟨rfl, rfl⟩ }

/-- In one execution a client hands its program out at most once, whoever the others are and
whatever they do: either a process is asked to run it, or it is submitted to the judge. -/
theorem hands_out_once (hconsumed : ∀ n, (consumed n).Recalls) (r : Request) (s : Sandbox) :
    ∃ c runs submissions, (execute Contexts.onSweep consumed r).Unfolds s c ∧
      HandsOutOnce r s c runs submissions := by
  rcases hacquire : acquire Contexts.onSweep (some r.key) (fun _ s => s) s with ⟨e | key, t⟩
  · exact handsOutOnce_of_not_acquired consumed hacquire
  · exact handsOutOnce_of_acquired hconsumed hacquire

/-- Where no interpreter starts, a program is submitted, and no process is asked to run it. -/
theorem hands_out_once_judged : ∃ (r : Request) (c : Turns Outcome) (runs submissions : Nat),
    (execute Contexts.onSweep (fun _ => pure ()) r).Unfolds judged c ∧
      HandsOutOnce r judged c runs submissions ∧
      (c.play fun _ s => s).2.runsAsked = 0 ∧ (c.play fun _ s => s).2.submissions = 1 := by
  let r : Request := { source := ⟨"", "", ""⟩, key := "k", values := [], timeout := .ofInt 10 }
  obtain ⟨c, runs, submissions, hc, honce⟩ :=
    hands_out_once (fun _ => .pure ()) r judged
  refine ⟨r, c, runs, submissions, hc, honce, ?_⟩
  rw [← hc]
  decide +kernel

end Execution

end Rerun
