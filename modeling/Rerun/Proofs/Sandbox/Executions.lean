import Rerun.Proofs.Sandbox.Teardown

/-!
Executions keep the sandbox sound, on a session and at the remote judge. An execution holds its
session, so that it is safe for a run that is in flight, and for keys that belong to no run.
-/

namespace Rerun

open Sandbox Op

variable {alone : Prop}

/-- Two states with the same sessions, interpreters, folders and seeds. -/
structure Sandbox.SameSessions (s t : Sandbox) : Prop where
  setup : t.setup = s.setup
  sessions : t.sessions = s.sessions
  records : t.records = s.records
  handles : t.handles = s.handles
  children : t.children = s.children
  folders : t.folders = s.folders
  seeds : t.engineSeeds = s.engineSeeds

theorem Sandbox.SameSessions.refl (s : Sandbox) : s.SameSessions s :=
  ⟨rfl, rfl, rfl, rfl, rfl, rfl, rfl⟩

/-- An operation that always succeeds and has nothing to do with sessions. -/
def Op.Aside (x : Op Unit) : Prop :=
  ∀ others s, s.Sane → ∃ t, x others s = (.ok (), t) ∧ t.Sane ∧ s.SameSessions t

namespace Registry

theorem Claimed.meanwhile {key : String} {s t : Sandbox} (h : Claimed key s)
    (hm : Meanwhile True s t) : Claimed key t := by
  rintro c rfl
  obtain ⟨i, x, hc, hx, hf⟩ := h c rfl
  obtain ⟨y, hy, -, -, -, -, -, hf'⟩ := hm.run hx
  obtain hc' | ⟨hn, -⟩ := hm.context hc hx hf
  · exact ⟨i, y, hc', hy, hf'.trans hf⟩
  · exact absurd trivial hn

theorem keyFor_some {key : String} (hkey : key ≠ "") : keyFor (some key) = pure key := by
  unfold keyFor
  exact if_neg hkey

theorem acquire_eq_ok {listener : String → Op Unit} {key k : String} (hkey : key ≠ "")
    {others : Interrupts} {s t : Sandbox}
    (h : acquire listener (some key) others s = (.ok k, t)) : k = key := by
  obtain ⟨_, s₁, -, h⟩ := bind_eq_ok.mp h
  obtain ⟨key', s₂, hk, h⟩ := bind_eq_ok.mp h
  rw [keyFor_some hkey] at hk
  obtain ⟨_, s₃, -, h⟩ := bind_eq_ok.mp h
  exact (Except.ok.inj (Prod.mk.inj h).1).symm.trans (Except.ok.inj (Prod.mk.inj hk).1).symm

/-- In a sane state an execution of a registered session is always noted. -/
theorem does_note {s : Sandbox} (hs : s.Sane) {key : String} {j : Nat}
    (hj : s.sessions.lookup key = some j) (fields : List (String × Json)) :
    ∃ fs, (note key (.obj fields)).Does s () { s with
        records := s.records.modify j fun x => { x with executions := x.executions + 1 }
        folders := fs } ∧
      Sane { s with
        records := s.records.modify j fun x => { x with executions := x.executions + 1 }
        folders := fs } := by
  obtain ⟨y, hy, -⟩ := hs.session hj
  have hs₁ := hs.modifyRecord j (f := fun x => { x with executions := x.executions + 1 })
    (fun _ => ⟨rfl, rfl⟩) fun _ h => h
  obtain ⟨fs, hjournal, hwrote⟩ := does_writeJournal hs₁ key
    (Assoc.put fields "event" ((fields.lookup "event").getD (.str "execution")))
  have hy' : (s.records.modify j fun x => { x with executions := x.executions + 1 })[j]? =
      some { y with executions := y.executions + 1 } :=
    Table.getElem?_modify_eq_some.mpr ⟨y, hy, by rw [if_pos rfl]⟩
  have hs₂ := hs₁.folders hwrote.proper
  obtain ⟨fs', hmetadata, hwrote'⟩ := does_writeMetadata hs₂ key
    [("execution_count", .int (y.executions + 1)), ("last_used", timeText s.clock)]
  refine ⟨fs', .bind (does_view _) ?_, hs₂.folders hwrote'.proper⟩
  have hfound : find? s key = some j := hj
  rw [hfound]
  exact .bind (does_change _) (.bind hjournal (.bind (does_need hy') (.bind (does_view _)
    hmetadata)))

end Registry

namespace Execution

theorem keeps_settle {consumed : Int → Op Unit} (hc : ∀ n, (consumed n).Keeps alone)
    (r : Request) (key : String) (started : Int) (reply : Json) :
    (settle consumed r key started reply).Keeps alone :=
  Keeps.chains.settle hc (fun entry _ => Registry.keeps_note key (.obj entry)) started reply

/-- A reply that is taken over is noted on the session that is registered under the key then. -/
theorem settle_eq_ok {s t : Sandbox} (ht : t.Sane) {key : String} {j : Nat}
    (hj : t.sessions.lookup key = some j) {consumed : Int → Op Unit} {r : Request}
    {fields : List (String × Json)} {n : Int} (hn : consumedOf fields = .ok n)
    {others : Interrupts} (hconsumed : consumed n others s = (.ok (), t)) {started ms : Int}
    (htime : elapsedMs started others t = (.ok ms, t)) {o : Outcome}
    (ho : outcomeOf r fields ms = .ok o) :
    ∃ fs, settle consumed r key started (.obj fields) others s = (.ok o, { t with
        records := t.records.modify j fun x => { x with executions := x.executions + 1 }
        folders := fs }) ∧
      Sane { t with
        records := t.records.modify j fun x => { x with executions := x.executions + 1 }
        folders := fs } := by
  obtain ⟨fs, hnote, hsane⟩ := Registry.does_note ht hj [
    ("run_id", Json.ofString? r.runId), ("mode", .str r.mode.name),
    ("inputs", .int r.values.length), ("status", .str o.status.name), ("time_ms", .int o.timeMs)]
  refine ⟨fs, ?_, hsane⟩
  simp [settle, bind_apply, hn, Op.ofExcept, hconsumed, htime, ho, hnote others]

section

variable {consumed : Int → Op Unit} {r : Request} {key : String} {others : Interrupts}
  {s t : Sandbox} {listener : String → Op Unit}

theorem execute_of_acquired
    (h : Registry.acquire listener (some r.key) others s = (.ok key, t)) :
    execute listener consumed r others s = executeLocal consumed r key others t := by
  rw [execute, bind_apply, Op.outcome, h]

/-- When no interpreter starts and there is a judge, a program is sent to it. -/
theorem execute_of_judge {e : Failure} {c : RemoteClient}
    (h : Registry.acquire listener (some r.key) others s = (.error e, t))
    (hkind : e.kind = .initialization) (hremote : t.setup.remote = some c) :
    execute listener consumed r others s =
      executeRemote c t.setup.remoteMaxWait r t.clock others t := by
  rw [execute, bind_apply, Op.outcome, h]
  simp [unseated, bind_apply, Op.view, hremote, hkind, now]

theorem execute_of_error {e : Failure}
    (h : Registry.acquire listener (some r.key) others s = (.error e, t))
    (hlocal : e.kind = .initialization → t.setup.remote = none) :
    execute listener consumed r others s = (.error e, t) := by
  rw [execute, bind_apply, Op.outcome, h]
  cases hremote : t.setup.remote with
  | none => simp [unseated, bind_apply, Op.view, hremote, Op.fail]
  | some remote =>
      have hkind : e.kind ≠ .initialization := fun hkind =>
        Option.some_ne_none _ (hremote.symm.trans (hlocal hkind))
      simp [unseated, bind_apply, Op.view, hremote, hkind, Op.fail]

theorem executeLocal_eq_concluded {result : Except Failure Json}
    (h : Registry.holding key (fun h => Interpreter.execute h r.body r.timeout) others s =
      (result, t)) :
    executeLocal consumed r key others s = concluded consumed r key s.clock result others t := by
  simp only [executeLocal, bind_apply, now, Op.view, Op.outcome, h]

theorem concluded_lost {e : Failure} {started ms : Int} (hl : e.losesInterpreter = true)
    (htime : elapsedMs started others t = (.ok ms, t)) :
    concluded consumed r key started (.error e) others t = (.ok (lostOutcome r e ms), t) := by
  simp only [concluded, hl, if_true, bind_apply, htime]
  rfl

theorem concluded_error {e : Failure} {started : Int} (hl : e.losesInterpreter = false) :
    concluded consumed r key started (.error e) others t = (.error e, t) := by
  simp only [concluded, hl, Bool.false_eq_true, if_false]
  rfl

theorem executeLocal_eq_settle {reply : Json}
    (h : Registry.holding key (fun h => Interpreter.execute h r.body r.timeout) others s =
      (.ok reply, t)) :
    executeLocal consumed r key others s = settle consumed r key s.clock reply others t :=
  executeLocal_eq_concluded h

theorem executeLocal_eq_lost {e : Failure}
    (h : Registry.holding key (fun h => Interpreter.execute h r.body r.timeout) others s =
      (.error e, t)) (hl : e.losesInterpreter = true) {ms : Int}
    (htime : elapsedMs s.clock others t = (.ok ms, t)) :
    executeLocal consumed r key others s = (.ok (lostOutcome r e ms), t) :=
  (executeLocal_eq_concluded h).trans (concluded_lost hl htime)

theorem executeLocal_eq_error {e : Failure}
    (h : Registry.holding key (fun h => Interpreter.execute h r.body r.timeout) others s =
      (.error e, t)) (hl : e.losesInterpreter = false) :
    executeLocal consumed r key others s = (.error e, t) :=
  (executeLocal_eq_concluded h).trans (concluded_error hl)

end

theorem safe_executeLocal {s : Sandbox} (hs : s.Sound) {consumed : Int → Op Unit}
    (hconsumed : ∀ n, (consumed n).Keeps False) {key : String} (hc : Registry.Claimed key s)
    (r : Request) : (executeLocal consumed r key).Safe False s := by
  refine .bind (Keeps.now s hs) id fun started s₁ hs₁ hm₁ hg => ?_
  obtain ⟨-, rfl⟩ := hg.view
  refine .bind (.outcome (Registry.safe_holding hs₁ hc fun h =>
    (Op.pervades_requests.post h _ _ _).keeps)) id fun reply s₂ hs₂ _ _ => ?_
  exact Keeps.chains.concluded (keeps_settle hconsumed r key started) reply s₂ hs₂

theorem safe_execute {s : Sandbox} (hs : s.Sound) {listener : String → Op Unit}
    (hl : ∀ key, (listener key).Keeps True) {consumed : Int → Op Unit}
    (hconsumed : ∀ n, (consumed n).Keeps False) {r : Request} (hkey : r.key ≠ "")
    (hc : Registry.Claimed r.key s) : (execute listener consumed r).Safe False s := by
  refine .bind_alone (.outcome (Registry.keeps_acquire hl _ s hs)) fun acquired s₁ hs₁ hm hg => ?_
  cases acquired with
  | ok key =>
      obtain ⟨others, -, hg⟩ := hg.outcome
      obtain rfl := Registry.acquire_eq_ok hkey hg
      exact safe_executeLocal hs₁ hconsumed (hc.meanwhile hm) r
  | error e =>
      exact Keeps.chains.unseated (fun remote maxWait started =>
        (Op.pervades_requests.executeRemote remote maxWait r started).keeps) e s₁ hs₁

end Execution

end Rerun
