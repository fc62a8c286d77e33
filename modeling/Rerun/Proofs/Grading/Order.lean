import Rerun.Grading
import Rerun.Proofs.Sandbox.Executions

/-!
Cases that are graded one after the other. When a worker has six turns in a row with a case that
waits, it grades the case as it would alone; so workers who get done with one case after the other
do what one worker does (`Grading.all_eq`).
-/

namespace Rerun

open Sandbox Op

namespace Op

variable {α β : Type}

theorem lawful : LawfulMonad Op := LawfulMonad.mk' Op
  (fun x => by
    funext others s
    refine (bind_apply x (fun a => pure (id a)) others s).trans ?_
    rcases x others s with ⟨_ | _, _⟩ <;> rfl)
  (fun _ _ => rfl)
  Op.bind_assoc

theorem pure_bind (a : α) (f : α → Op β) : pure a >>= f = f a := rfl

theorem ofExcept_apply (r : Except Failure α) (others : Interrupts) (s : Sandbox) :
    ofExcept r others s = (r, s) := by
  cases r <;> rfl

end Op

namespace Grading

variable {listener : String → Op Unit} {q : Request} {x : Execution.Request}

theorem sessionKey_ne_empty (id : String) : sessionKey id ≠ "" := by
  intro h
  have h := congrArg (·.toList.head?) h
  simp [sessionKey, String.toList_append] at h

/-! ### One case -/

def proceed (listener : String → Op Unit) (q : Request) : Nat → Stage → Op Stage
  | 0, stage => pure stage
  | n + 1, stage => advance listener q stage >>= proceed listener q n

theorem proceed_finished (n : Nat) (result : Except Failure Verdict) :
    proceed listener q n (.finished result) = pure (.finished result) := by
  induction n with
  | zero => rfl
  | succ n ih => exact ih

theorem proceed_executed (n : Nat) (result : Except Failure Outcome) :
    proceed listener q (n + 1) (.executed x result) = finish q x result := by
  funext others s
  simp only [proceed, advance, finish, bind_apply, Op.outcome]
  rcases Registry.reset x.key others s with ⟨_ | _, t⟩ <;>
    exact congrArg (· others t) (proceed_finished n _)

def wind (q : Request) (x : Execution.Request) (started : Int) (r : Nat)
    (reply : Except Failure Json) : Op Stage := do
  let used ← Op.outcome (Registry.letGo x.key r reply)
  finish q x (← Op.outcome (Execution.concluded (fun _ => pure ()) x x.key started used))

theorem proceed_concluded (listener : String → Op Unit) (q : Request) (x : Execution.Request)
    (n : Nat) (started : Int) (used : Except Failure Json) :
    concluded x started used >>= proceed listener q (n + 1) =
      (do finish q x (← Op.outcome
        (Execution.concluded (fun _ => pure ()) x x.key started used))) := by
  simp only [concluded, Op.bind_assoc, Op.pure_bind, proceed_executed]

theorem proceed_parted (listener : String → Op Unit) (q : Request) (x : Execution.Request)
    (n : Nat) (started : Int) (r : Nat) (reply : Except Failure Json) :
    parted x started r reply >>= proceed listener q (n + 1) = wind q x started r reply := by
  simp only [parted, wind, Op.bind_assoc, proceed_concluded]

theorem proceed_running (n : Nat) (started : Int) (r h c : Nat) (a : Scripted) :
    proceed listener q (n + 2) (.running x started r h c a) =
      Op.outcome (Process.react c "/run" x.body a >>= Interpreter.heard h "/run" x.timeout) >>=
        wind q x started r := by
  rw [proceed, advance, Op.bind_assoc]
  exact congrArg (_ >>= ·) (funext fun reply => proceed_parted listener q x n started r reply)

theorem proceed_holding (n : Nat) (started : Int) (r h : Nat) :
    proceed listener q (n + 3) (.holding x started r h) =
      Op.outcome (Interpreter.execute h x.body x.timeout) >>= wind q x started r := by
  have hfails (e : Failure) (others : Interrupts) (t : Sandbox) :=
    congrFun (congrFun (proceed_parted listener q x (n + 1) started r (.error e)) others) t
  funext others s
  simp only [proceed, advance, Interpreter.execute, Interpreter.post, Process.post, bind_apply,
    Op.outcome]
  rcases Interpreter.addressee h x.body others s with ⟨e | c, t⟩
  · exact hfails e others t
  · dsimp only
    rcases Process.arrive c "/run" x.body others t with ⟨e | a, u⟩
    · exact hfails e others u
    · exact congrFun (congrFun (proceed_running n started r h c a) others) u

/-- The turns from the time when a case has its session are an execution on it. -/
theorem proceed_seated (n : Nat) : proceed listener q (n + 4) (.seated x) =
    (do finish q x (← Op.outcome (Execution.executeLocal (fun _ => pure ()) x x.key))) := by
  have hfails (e : Failure) (others : Interrupts) (s t : Sandbox) :=
    congrFun (congrFun (proceed_concluded listener q x (n + 2) s.clock (.error e)) others) t
  funext others s
  simp only [proceed, advance, Execution.executeLocal, Registry.holding, bind_apply, Op.outcome,
    now, Op.view, pure_apply]
  rcases Registry.hold x.key others s with ⟨e | r, t⟩
  · exact hfails e others s t
  · dsimp only
    rcases record r others t with ⟨e | info, u⟩
    · exact hfails e others s u
    · exact congrFun (congrFun (proceed_holding n s.clock r info.handle) others) u

/-- The turns from the time when it is settled what a case is executed as are an execution. -/
theorem proceed_named (n : Nat) (hkey : x.key ≠ "") : proceed listener q (n + 5) (.named x) =
    (do finish q x (← Op.outcome (Execution.execute listener (fun _ => pure ()) x))) := by
  funext others s
  simp only [proceed, advance, Execution.execute, bind_apply, Op.outcome]
  rcases hacquire : Registry.acquire listener (some x.key) others s with ⟨e | key, t⟩
  · exact congrFun (congrFun (proceed_executed (n + 3) _) others) _
  · obtain rfl := Registry.acquire_eq_ok hkey hacquire
    exact congrFun (congrFun (proceed_seated n) others) t

/-- A case whose session is taken down gets the verdict on what came of it. -/
theorem finish_of_ensuring {checker : Checker} (hchecker : Checker.named q.checker = .ok checker)
    (y : Op Outcome) : (do
      let result ← Op.outcome (do
        let result ← Op.ensuring (Op.outcome y) (Registry.reset x.key)
        Op.ofExcept (conclusion q checker result))
      pure (.finished result)) = (do finish q x (← Op.outcome y)) := by
  funext others s
  simp only [finish, hchecker, bind_apply, Op.outcome, Op.ensuring]
  rcases y others s with ⟨result, t⟩
  dsimp only
  rcases Registry.reset x.key others t with ⟨_ | _, u⟩
  · rfl
  · simp only [ofExcept_apply]
    rfl

theorem proceed_waiting (n : Nat) : proceed listener q (n + 6) .waiting =
    (do pure (.finished (← Op.outcome (one listener q)))) := by
  cases hchecker : Checker.named q.checker with
  | error e =>
      rw [proceed, advance, one, hchecker]
      exact proceed_finished (n + 5) (.error e)
  | ok checker =>
      have hkey (id : String) (usual : Binary64) : (q.run (sessionKey id) usual).key ≠ "" :=
        sessionKey_ne_empty id
      rw [proceed, advance, one, hchecker]
      simp only [Op.bind_assoc, Op.pure_bind, proceed_named n (hkey _ _)]
      funext others s
      let t := (drawId others s).2
      let id := String.ofList (Text.hexDigits 8 t.drawnIds ++ Text.hexDigits 4 0)
      let x := q.run (sessionKey id) s.setup.batchTimeout
      exact (congrFun (congrFun (finish_of_ensuring (x := x) hchecker
        (Execution.execute listener (fun _ => pure ()) x)) others) t).symm

/-! ### Pools -/

namespace Pool

variable {workers : Nat} {pool : Pool}

theorem work_append (turns turns' : List Turn) (pool : Pool) :
    work listener workers (turns ++ turns') pool =
      work listener workers turns pool >>= work listener workers turns' := by
  induction turns generalizing pool with
  | nil => rfl
  | cons t turns ih =>
      rw [List.cons_append, work, work, Op.bind_assoc]
      exact congrArg (_ >>= ·) (funext ih)

theorem work_of_still {turns : List Turn}
    (h : ∀ t ∈ turns, turn listener workers pool t = pure pool) :
    work listener workers turns pool = pure pool := by
  induction turns with
  | nil => rfl
  | cons t turns ih =>
      rw [work, h t List.mem_cons_self]
      exact ih fun t ht => h t (List.mem_cons_of_mem _ ht)

theorem exists_of_canGo {k : Nat} (h : pool.canGo workers k = true) : ∃ c, pool[k]? = some c := by
  rw [canGo] at h
  cases hk : pool[k]? with
  | none =>
      rw [hk] at h
      exact absurd h Bool.false_ne_true
  | some c => exact ⟨c, rfl⟩

theorem turn_of_canGo {k : Nat} {stage : Stage} (hk : pool[k]? = some (q, stage))
    (hgo : pool.canGo workers k = true) : turn listener workers pool (.go k) =
      (do pure (pool.set k (q, ← advance listener q stage))) := by
  rw [turn, hk]
  exact if_pos hgo

theorem turn_of_not_canGo {k : Nat} (hgo : pool.canGo workers k = false) :
    turn listener workers pool (.go k) = pure pool := by
  rw [turn]
  cases pool[k]? with
  | none => rfl
  | some c => exact if_neg (hgo ▸ Bool.false_ne_true)

/-- A case goes on as often as it has turns, while nothing keeps it from that. -/
theorem work_replicate (listener : String → Op Unit) (q : Request) (stage : Stage) {k : Nat}
    (hk : k < pool.length)
    (hgo : ∀ stage, stage.result? = none → canGo workers (pool.set k (q, stage)) k = true)
    (n : Nat) : work listener workers (List.replicate n (.go k)) (pool.set k (q, stage)) =
      (do pure (pool.set k (q, ← proceed listener q n stage))) := by
  induction n generalizing stage with
  | zero => rfl
  | succ n ih =>
      have hget : (pool.set k (q, stage))[k]? = some (q, stage) := by simp [hk]
      rw [List.replicate_succ, work, proceed, Op.bind_assoc]
      cases hresult : stage.result? with
      | none =>
          rw [turn_of_canGo hget (hgo stage hresult), Op.bind_assoc]
          refine congrArg (_ >>= ·) (funext fun next => ?_)
          rw [Op.pure_bind, List.set_set]
          exact ih next
      | some result =>
          have hstill : canGo workers (pool.set k (q, stage)) k = false := by
            cases stage <;> simp_all [canGo, Stage.isUnderway, Stage.isWaiting, Stage.result?]
          obtain rfl : stage = .finished result := by
            cases stage <;> simp_all [Stage.result?]
          rw [turn_of_not_canGo hstill, Op.pure_bind]
          exact ih _

def queued (rs : List Request) : Pool := rs.map (·, .waiting)

def graded (es : List (Request × Verdict)) : Pool := es.map fun e => (e.1, .finished (.ok e.2))

variable {es : List (Request × Verdict)} {rs : List Request}

theorem results_append (pool pool' : Pool) : results (pool ++ pool') =
    (do pure ((← results pool) ++ (← results pool'))) := by
  rw [results, results, results, List.filterMap_append, List.mapM_append]

theorem results_graded (es : List (Request × Verdict)) :
    results (graded es) = .ok (es.map (·.2)) := by
  induction es with
  | nil => rfl
  | cons e es ih =>
      rw [graded, List.map_cons, ← List.singleton_append, results_append]
      exact congrArg (fun vs => (do pure ([e.2] ++ (← vs)) : Except Failure (List Verdict))) ih

theorem hasFailed_graded (pool : Pool) : hasFailed (graded es ++ pool) = hasFailed pool := by
  induction es with
  | nil => rfl
  | cons e es ih => exact ih

theorem set_graded (q : Request) (stage stage' : Stage) (rs : List Request) :
    List.set (graded es ++ (q, stage) :: queued rs) es.length (q, stage') =
      graded es ++ (q, stage') :: queued rs := by
  have hlength : es.length = (graded es).length := (List.length_map _).symm
  rw [hlength, List.set_append_right _ _ (Nat.le_refl _), Nat.sub_self, List.set_cons_zero]

/-- The case after those that got their verdicts can go on while all others wait. -/
theorem canGo_graded (hworkers : 0 < workers) {stage : Stage} (hstage : stage.result? = none) :
    canGo workers (graded es ++ (q, stage) :: queued rs) es.length = true := by
  have hlength : es.length = (graded es).length := (List.length_map _).symm
  have hget : (graded es ++ (q, stage) :: queued rs)[es.length]? = some (q, stage) := by
    rw [hlength, List.getElem?_append_right (Nat.le_refl _), Nat.sub_self, List.getElem?_cons_zero]
  rw [canGo, hget]
  dsimp only
  cases hwaits : stage.isWaiting with
  | false =>
      rw [Stage.isUnderway, hwaits, hstage]
      rfl
  | true =>
      have hbefore : ((graded es ++ (q, stage) :: queued rs).take es.length).all
          (!·.2.isWaiting) = true := by
        rw [hlength, List.take_left', graded, List.all_map]
        · exact List.all_eq_true.mpr fun _ _ => rfl
        · rfl
      have hbusy : (graded es ++ (q, stage) :: queued rs).countP (·.2.isUnderway) = 0 := by
        refine List.countP_eq_zero.mpr fun c hc => ?_
        obtain hc | hc := List.mem_append.mp hc
        · obtain ⟨e, -, rfl⟩ := List.mem_map.mp hc
          exact nofun
        · obtain rfl | hc := List.mem_cons.mp hc
          · simp [Stage.isUnderway, hwaits]
          · obtain ⟨q', -, rfl⟩ := List.mem_map.mp hc
            exact nofun
      rw [hbefore, hbusy]
      simpa using Or.inr hworkers

theorem results_failed (es : List (Request × Verdict)) (q : Request) (e : Failure)
    (pool : Pool) : results (graded es ++ (q, .finished (.error e)) :: pool) = .error e := by
  rw [results_append, results_graded]
  rfl

/-- Those that wait are given up when the case before them has failed. -/
theorem filter_queued (es : List (Request × Verdict)) (q : Request)
    (result : Except Failure Verdict) (rs : List Request) :
    (graded es ++ (q, .finished result) :: queued rs).filter (!·.2.isWaiting) =
      graded es ++ [(q, .finished result)] := by
  have hkept : (graded es).filter (!·.2.isWaiting) = graded es := by
    refine List.filter_eq_self.mpr fun c hc => ?_
    obtain ⟨e, -, rfl⟩ := List.mem_map.mp hc
    rfl
  have hgone : (queued rs).filter (!·.2.isWaiting) = [] := by
    refine List.filter_eq_nil_iff.mpr fun c hc => ?_
    obtain ⟨q', -, rfl⟩ := List.mem_map.mp hc
    exact nofun
  rw [List.filter_append, List.filter_cons_of_pos rfl, hkept, hgone]

theorem mem_laps {i n : Nat} {t : Turn} (h : t ∈ (List.range' i n).flatMap lap) :
    t = .collect ∨ ∃ k, i ≤ k ∧ t = .go k := by
  obtain ⟨k, hk, ht⟩ := List.mem_flatMap.mp h
  obtain ht | ht := List.mem_cons.mp ht
  · exact .inl ht
  · exact .inr ⟨k, (List.mem_range'_1.mp hk).1, List.eq_of_mem_replicate ht⟩

theorem work_failed {i : Nat} (hi : es.length < i) (n : Nat) (e : Failure) : (do
      let pool ← work listener workers ((List.range' i n).flatMap lap)
        (graded es ++ (q, .finished (.error e)) :: queued rs)
      Op.ofExcept pool.results) = Op.fail e := by
  cases n with
  | zero =>
      refine Eq.trans (b := Op.ofExcept (results _)) rfl ?_
      rw [results_failed]
      rfl
  | succ n =>
      have hcollect (rs : List Request) : turn listener workers
          (graded es ++ (q, .finished (.error e)) :: queued rs) .collect =
            pure (graded es ++ [(q, .finished (.error e))]) := by
        rw [turn, hasFailed_graded, ← filter_queued es q (.error e) rs]
        rfl
      have hstill (t : Turn) (ht : t = .collect ∨ ∃ k, i ≤ k ∧ t = .go k) :
          turn listener workers (graded es ++ [(q, .finished (.error e))]) t =
            pure (graded es ++ [(q, .finished (.error e))]) := by
        obtain rfl | ⟨k, hk, rfl⟩ := ht
        · exact hcollect []
        · -- The other cases are beyond those that are left.
          refine turn_of_not_canGo ?_
          rw [canGo, List.getElem?_eq_none (by simp [graded]; omega)]
      rw [List.range'_succ, List.flatMap_cons, lap, List.cons_append, work, hcollect,
        Op.pure_bind, work_of_still fun t ht => hstill t ?_, Op.pure_bind, results_failed]
      · rfl
      · obtain ht | ht := List.mem_append.mp ht
        · exact .inr ⟨i, Nat.le_refl i, List.eq_of_mem_replicate ht⟩
        · obtain ht | ⟨k, hk, ht⟩ := mem_laps ht
          · exact .inl ht
          · exact .inr ⟨k, by omega, ht⟩

/-- After cases that were graded the others are, while they have their turns in order. -/
theorem work_laps (hworkers : 0 < workers) (es : List (Request × Verdict)) (rs : List Request) :
    (do
      let pool ← work listener workers ((List.range' es.length rs.length).flatMap lap)
        (graded es ++ queued rs)
      Op.ofExcept pool.results) =
    (do pure (es.map (·.2) ++ (← rs.mapM (one listener)))) := by
  have := Op.lawful
  induction rs generalizing es with
  | nil =>
      have hresults : results (graded es ++ queued []) = .ok (es.map (·.2)) := by
        rw [queued, List.map_nil, List.append_nil, results_graded]
      refine Eq.trans (b := Op.ofExcept (results (graded es ++ queued []))) rfl ?_
      rw [hresults, List.mapM_nil, Op.pure_bind, List.append_nil]
      rfl
  | cons q rs ih =>
      have hcollect : turn listener workers (graded es ++ (q, .waiting) :: queued rs) .collect =
          pure (graded es ++ (q, .waiting) :: queued rs) := by
        rw [turn, hasFailed_graded]
        rfl
      have hlt : es.length < List.length (graded es ++ (q, .waiting) :: queued rs) := by
        simp [graded]
      have hwork := work_replicate listener q .waiting hlt (fun stage hstage => by
        rw [set_graded]
        exact canGo_graded hworkers hstage) 6
      rw [set_graded, proceed_waiting] at hwork
      simp only [set_graded] at hwork
      rw [List.length_cons, List.range'_succ, List.flatMap_cons, work_append, lap, work, queued,
        List.map_cons, ← queued, hcollect, Op.pure_bind, hwork, List.mapM_cons]
      funext others s
      simp only [bind_apply, Op.outcome, pure_apply]
      rcases one listener q others s with ⟨e | v, t⟩
      · exact congrFun (congrFun (work_failed (Nat.lt_succ_self _) _ e) others) t
      · have hnext : graded es ++ (q, .finished (.ok v)) :: queued rs =
            graded (es ++ [(q, v)]) ++ queued rs := by
          simp [graded]
        have hrest := congrFun (congrFun (ih (es ++ [(q, v)])) others) t
        rw [← hnext, List.length_append] at hrest
        refine hrest.trans ?_
        simp only [bind_apply, pure_apply]
        rcases rs.mapM (one listener) others t with ⟨_ | vs, u⟩
        · rfl
        · simp

/-- Cases that have their turns one after the other are graded in order. -/
theorem work_closing (listener : String → Op Unit) (hworkers : 0 < workers) (rs : List Request) :
    (do
      let pool ← work listener workers (closing rs.length) (queued rs)
      Op.ofExcept pool.results) = rs.mapM (one listener) := by
  have := Op.lawful
  rw [closing, List.range_eq_range']
  refine (work_laps hworkers [] rs).trans ?_
  simp only [List.map_nil, List.nil_append]
  exact bind_pure _

end Pool

/-! ### Lists of cases -/

/-- The turns that a pool has for a list of cases: workers take turns in some way first, unless
there is one worker, or one case, only. -/
def schedule (workers : Nat) (turns : List Turn) (n : Nat) : List Turn :=
  (if workers ≤ 1 || n ≤ 1 then [] else turns) ++ Pool.closing n

theorem batch_eq (turns : List Turn) (source : Source) (cases : List TestCase)
    (options : GradingOptions) : batch listener turns source cases options = (do
      let limit ← Op.ofExcept (limitOf options.timeoutMs)
      let _ ← Op.ofExcept (Checker.named (some options.checker))
      let workers ← Op.view (·.setup.workers)
      let pool ← Pool.work listener (max 1 workers) (schedule workers turns cases.length)
        (Pool.queued (cases.map (caseOf source options limit)))
      Op.ofExcept pool.results) := by
  rw [batch]
  refine congrArg (_ >>= ·) (funext fun limit => congrArg (_ >>= ·) (funext fun _ =>
    congrArg (_ >>= ·) (funext fun workers => ?_)))
  rw [schedule]
  cases hone : decide (workers ≤ 1) || decide (cases.length ≤ 1) with
  | true =>
      rw [if_pos rfl, if_pos rfl, List.nil_append, ← List.length_map (caseOf source options limit)]
      exact (Pool.work_closing listener (by omega) _).symm
  | false =>
      rw [if_neg Bool.false_ne_true, if_neg Bool.false_ne_true]
      simp only [Bool.or_eq_false_iff, decide_eq_false_iff_not] at hone
      rw [Nat.max_eq_right (by omega)]
      rfl

/-- Workers who get done with one case after the other do what one worker does. -/
theorem all_eq (source : Source) (cases : List TestCase) (options : GradingOptions) :
    all listener source cases options = (do
      let limit ← Op.ofExcept (limitOf options.timeoutMs)
      let _ ← Op.ofExcept (Checker.named (some options.checker))
      (cases.map (caseOf source options limit)).mapM (one listener)) := by
  rw [all, batch_eq]
  refine congrArg (_ >>= ·) (funext fun limit => congrArg (_ >>= ·) (funext fun _ => ?_))
  simp only [schedule, ite_self, List.nil_append]
  funext others s
  have hworkers : 0 < max 1 s.setup.workers := by omega
  have hclosing := Pool.work_closing listener hworkers (cases.map (caseOf source options limit))
  rw [List.length_map] at hclosing
  exact congrFun (congrFun hclosing others) s

end Grading

end Rerun
