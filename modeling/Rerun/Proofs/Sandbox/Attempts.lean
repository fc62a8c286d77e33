import Rerun.Proofs.Sandbox.Clients

/-!
Attempts at runs, up to their requests. What comes before the request of an attempt is one step,
since others do not act in it: a run is taken or made, it is in flight from then on, and its seed is
drawn if it has none.
-/

namespace Rerun

open Sandbox Op

variable {s t u : Sandbox} {others : Interrupts}

namespace Run

variable {i : Nat} {x : RunInfo}

/-- What is done with a run in flight before its attempt: the first one draws its seed, and another
one is for a value that is added. -/
def ready (i : Nat) : Option Json → Op Unit
  | none => do
    let r ← run i
    let _ ← Seeds.draw r.owner r.runId
  | some value => setRun i fun r => { r with queue := r.queue.append (Execution.asText value) }

theorem inFlight_eq {α : Type} {y : Op α} {res : Except Failure α} (hx : s.runs[i]? = some x)
    (hidle : x.inFlight = false) (busy : String → Failure)
    (hy : y others (begun s i) = (res, u)) :
    inFlight i busy y others s = (res, landed u i) := by
  have hrun : (run i).Does s x s := does_need hx
  refine (hrun.step _ others).trans ?_
  rw [if_neg (by rw [hidle]; decide)]
  refine ((does_change _).step _ others).trans ?_
  show ensuring y _ others (begun s i) = _
  rw [ensuring, hy]
  rfl

theorem does_run_begun (hx : s.runs[i]? = some x) :
    (run i).Does (begun s i) { x with inFlight := true } (begun s i) :=
  does_need (Table.getElem?_modify_eq_some.mpr ⟨x, hx, by rw [if_pos rfl]⟩)

theorem start_eq {echo : Option Json} {n : Int} {res : Except Failure Outcome}
    (hx : s.runs[i]? = some x) (hidle : x.inFlight = false)
    (hdraw : (Seeds.draw x.owner x.runId).Does (begun s i) n t)
    (hattempt : attempt Contexts.onSweep i echo others t = (res, u)) :
    start Contexts.onSweep i echo others s = (res, landed u i) := by
  refine inFlight_eq hx hidle _ ?_
  exact ((does_run_begun hx).step _ others).trans ((hdraw.step _ others).trans hattempt)

theorem resume_eq {value : Json} {res : Except Failure Outcome} (hx : s.runs[i]? = some x)
    (hidle : x.inFlight = false) (hawaits : x.awaitsInput = true)
    (happend : (ready i (some value)).Does (begun s i) () t)
    (hattempt : attempt Contexts.onSweep i (some value) others t = (res, u)) :
    resume Contexts.onSweep i value others s = (res, landed u i) := by
  refine inFlight_eq hx hidle _ ?_
  refine ((does_run_begun hx).step _ others).trans ?_
  have hawaits' : RunInfo.awaitsInput { x with inFlight := true } = true := hawaits
  rw [if_pos hawaits']
  exact (happend.step _ others).trans hattempt

def rewound (s : Sandbox) (i : Nat) : Sandbox :=
  { s with
    runs := s.runs.modify i fun r =>
      { r with queue := r.queue.rewind, attempts := r.attempts + 1 } }

theorem does_prepare (hx : s.runs[i]? = some x) (howner : x.owner = .engine) :
    ∃ n t, (prepare i).Does s (x.request i n) t ∧ Seeds.Drawn (rewound s i) x.runId n t := by
  obtain ⟨n, t, hdraw, hdrawn⟩ := Seeds.does_draw (rewound s i) x.runId
  have hrun : (run i).Does (rewound s i)
      { x with queue := x.queue.rewind, attempts := x.attempts + 1 } (rewound s i) :=
    does_need (Table.getElem?_modify_eq_some.mpr ⟨x, hx, by rw [if_pos rfl]⟩)
  rw [← howner] at hdraw
  exact ⟨n, t, (does_change _).bind (hrun.bind (hdraw.bind (does_pure _))), hdrawn⟩

/-- A run is taken for an attempt, and is in flight from then on. -/
def embark (i : Nat) (added : Option Json) : Op Execution.Request := do
  setRun i fun r => { r with inFlight := true }
  ready i added
  prepare i

def undergo (i : Nat) (request : Execution.Request) (echo : Option Json) : Op Outcome := do
  let outcome ← Execution.execute Contexts.onSweep (markConsumed i) request
  let outcome := outcome.echoing echo
  setRun i fun r => { r with last := some outcome }
  pure outcome

/-- What is left of an attempt once its run is in flight: the run lands however it ends. -/
def conclude (i : Nat) (request : Execution.Request) (echo : Option Json) : Op Outcome :=
  Op.ensuring (undergo i request echo) (setRun i fun r => { r with inFlight := false })

/-- A run that was taken for an attempt: it is in flight, and the request is made with its seed. -/
structure Embarked (s : Sandbox) (i : Nat) (x : RunInfo) (q : Execution.Request) (t : Sandbox) :
    Prop where
  runId : q.runId = some x.runId
  key : q.key = x.key
  drawn : ∃ n v f, Seeds.Drawn s x.runId n v ∧ q.seed = some n ∧
    (∀ y : RunInfo, (f y).key = y.key ∧ (f y).timeout = y.timeout ∧ (f y).runId = y.runId ∧
      (f y).owner = y.owner ∧ (f y).inFlight = true) ∧ t = { v with runs := s.runs.modify i f }

theorem does_embark_new (hx : s.runs[i]? = some x) (howner : x.owner = .engine) :
    ∃ q v t n, (ready i none).Does (begun s i) () v ∧ (prepare i).Does v q t ∧
      (Seeds.draw x.owner x.runId).Does (begun s i) n v ∧ Embarked s i x q t := by
  obtain ⟨n, v, hdraw, hdrawn⟩ := Seeds.does_draw (begun s i) x.runId
  rw [← howner] at hdraw
  have hrun : v.runs = s.runs.modify i fun r => { r with inFlight := true } := by
    rw [hdrawn.tables]
    rfl
  have hx' : v.runs[i]? = some { x with inFlight := true } := by
    rw [hrun]
    exact Table.getElem?_modify_eq_some.mpr ⟨x, hx, by rw [if_pos rfl]⟩
  obtain ⟨m, t, hprepare, hdrawn'⟩ := does_prepare hx' howner
  -- The run has its seed by now, so that the attempt draws no other one.
  have hfound : (rewound v i).engineSeeds.lookup x.runId = some n := hdrawn.found
  obtain rfl : t = rewound v i := hdrawn'.kept hfound
  obtain rfl := Option.some.inj (hfound.symm.trans hdrawn'.found)
  let f (r : RunInfo) : RunInfo :=
    { r with inFlight := true, queue := r.queue.rewind, attempts := r.attempts + 1 }
  refine ⟨_, v, _, n, (does_run_begun hx).bind (hdraw.bind (does_pure _)), hprepare, hdraw, rfl,
    rfl, n, { v with runs := s.runs }, f, hdrawn.withRuns s.runs, rfl,
    fun _ => ⟨rfl, rfl, rfl, rfl, rfl⟩, ?_⟩
  rw [rewound, hrun, List.modify_modify_eq]
  rfl

theorem does_embark_again (hx : s.runs[i]? = some x) (howner : x.owner = .engine) (value : Json) :
    ∃ q v t, (ready i (some value)).Does (begun s i) () v ∧ (prepare i).Does v q t ∧
      Embarked s i x q t := by
  let g (r : RunInfo) : RunInfo := { r with queue := r.queue.append (Execution.asText value) }
  let v : Sandbox := { s with
    runs := s.runs.modify i (g ∘ fun r => { r with inFlight := true }) }
  have hready : (ready i (some value)).Does (begun s i) () v := by
    intro others
    refine congrArg (fun rs => (Except.ok (), { s with runs := rs })) ?_
    exact List.modify_modify_eq _ _ _ _
  have hx' : v.runs[i]? = some (g { x with inFlight := true }) :=
    Table.getElem?_modify_eq_some.mpr ⟨x, hx, by rw [if_pos rfl]; rfl⟩
  obtain ⟨n, t, hprepare, hdrawn⟩ := does_prepare hx' howner
  let f (r : RunInfo) : RunInfo :=
    { r with inFlight := true, queue := (r.queue.append (Execution.asText value)).rewind
             attempts := r.attempts + 1 }
  refine ⟨_, v, t, hready, hprepare, rfl, rfl, n, { t with runs := s.runs }, f,
    hdrawn.withRuns s.runs, rfl, fun _ => ⟨rfl, rfl, rfl, rfl, rfl⟩, ?_⟩
  have hruns : t.runs = s.runs.modify i f := by
    rw [hdrawn.tables]
    exact List.modify_modify_eq _ _ _ _
  rw [← hruns]

theorem attempt_of_prepare {q : Execution.Request} (hprepare : (prepare i).Does t q u)
    (echo : Option Json) :
    attempt Contexts.onSweep i echo others t = undergo i q echo others u :=
  hprepare.step _ others

theorem conclude_eq (q : Execution.Request) (echo : Option Json) :
    conclude i q echo others u =
      ((undergo i q echo others u).1, landed (undergo i q echo others u).2 i) := rfl

theorem start_eq_conclude {q : Execution.Request} {n : Int} (hx : s.runs[i]? = some x)
    (hidle : x.inFlight = false) (hdraw : (Seeds.draw x.owner x.runId).Does (begun s i) n t)
    (hprepare : (prepare i).Does t q u) (echo : Option Json) :
    start Contexts.onSweep i echo others s = conclude i q echo others u :=
  start_eq hx hidle hdraw ((attempt_of_prepare hprepare echo).trans rfl)

theorem resume_eq_conclude {q : Execution.Request} {value : Json} (hx : s.runs[i]? = some x)
    (hidle : x.inFlight = false) (hawaits : x.awaitsInput = true)
    (happend : (ready i (some value)).Does (begun s i) () t) (hprepare : (prepare i).Does t q u) :
    resume Contexts.onSweep i value others s = conclude i q (some value) others u :=
  resume_eq hx hidle hawaits happend ((attempt_of_prepare hprepare (some value)).trans rfl)

theorem aside_markConsumed (i : Nat) (n : Int) : (markConsumed i n).Aside := by
  intro others s hs
  exact ⟨_, rfl, hs.modifyRun i fun _ => ⟨rfl, rfl, rfl, rfl⟩, { SameSessions.refl s with }⟩

end Run

namespace Contexts

variable {c : String} {i : Nat} {x : RunInfo} {source : Source} {prior : List String}

theorem does_ensureIdle (hs : s.Sane) (hidle : Idle c s) : (ensureIdle c).Does s () s := by
  cases hc : s.contexts.lookup c with
  | none =>
      intro others
      simp [ensureIdle, bind_apply, Op.view, run?, hc]
  | some i =>
      obtain ⟨x, hx, -⟩ := hs.context hc
      have hrun : (Sandbox.run i).Does s x s := does_need hx
      intro others
      simp [ensureIdle, bind_apply, Op.view, run?, hc, hrun others, hidle hc hx]

theorem does_resumable_of_continues (hc : s.contexts.lookup c = some i) (hx : s.runs[i]? = some x)
    (hcont : continues x source prior = true) :
    (resumable c source prior).Does s (some i) s := by
  have hrun : (Sandbox.run i).Does s x s := does_need hx
  intro others
  simp [resumable, bind_apply, Op.view, run?, hc, hrun others, hcont]

theorem does_resumable (hs : s.Sane) (c : String) (source : Source) (prior : List String) :
    (resumable c source prior).Does s none s ∨ ∃ i x, s.contexts.lookup c = some i ∧
      s.runs[i]? = some x ∧ continues x source prior = true ∧
      (resumable c source prior).Does s (some i) s := by
  cases hc : s.contexts.lookup c with
  | none => exact .inl fun others => by simp [resumable, bind_apply, Op.view, run?, hc]
  | some i =>
      obtain ⟨x, hx, -⟩ := hs.context hc
      have hrun : (Sandbox.run i).Does s x s := does_need hx
      cases hcont : continues x source prior with
      | false =>
          refine .inl fun others => ?_
          simp [resumable, bind_apply, Op.view, run?, hc, hrun others, hcont]
      | true => exact .inr ⟨i, x, rfl, hx, hcont, does_resumable_of_continues hc hx hcont⟩

/-- A submission up to its request: a run is taken for it, a new one unless it continues the one
that there is. -/
def embark (context : String) (source : Source) (prior : List Json) (newest : Option Json) :
    Op (Nat × Execution.Request) := do
  let prior := prior.map Execution.asText
  ensureIdle context
  match newest with
  | none => do
    let i ← newRun context source prior
    let request ← Run.embark i none
    pure (i, request)
  | some value =>
    match ← resumable context source prior with
    | some i => do
      let request ← Run.embark i (some value)
      pure (i, request)
    | none => do
      let i ← newRun context source (prior ++ [Execution.asText value])
      let request ← Run.embark i none
      pure (i, request)

/-- How a submission begins. -/
inductive Embarks (c : String) (s : Sandbox) :
    Except Failure (Nat × Execution.Request) → Sandbox → Prop
  /-- The run of the context is in flight. -/
  | refused (e : Failure) : Embarks c s (.error e) s
  /-- The run before is left, but the time that a new one may take cannot be told. -/
  | stranded {t : Sandbox} (e : Failure) : (leave c).Does s () t → Embarks c s (.error e) t
  /-- The run before is left for a new one. -/
  | begun {t u : Sandbox} {source : Source} {values : List String} {timeout : Binary64}
      {q : Execution.Request} : (leave c).Does s () t →
      secondsOf t.setup.runTimeoutMs = .ok timeout →
      Run.Embarked (entered t c (freshRun t c source values timeout)) t.runs.length
        (freshRun t c source values timeout) q u →
      Embarks c s (.ok (t.runs.length, q)) u
  /-- The run of the context is resumed. -/
  | again {i : Nat} {x : RunInfo} {q : Execution.Request} {t : Sandbox} :
      s.contexts.lookup c = some i → s.runs[i]? = some x → x.inFlight = false →
      Run.Embarked s i x q t → Embarks c s (.ok (i, q)) t

/-- A new run is entered and taken, or the context is left without one. -/
theorem newRun_embarks (hs : s.Sane) (c : String) (source : Source) (values : List String)
    (echo : Option Json) : ∃ res t, Embarks c s res t ∧ ∀ others,
      (do let i ← newRun c source values
          let request ← Run.embark i none
          pure (i, request) : Op _) others s = (res, t) ∧
      (do let i ← newRun c source values; Run.start onSweep i echo) others s =
        match res with
        | .ok (i, q) => Run.conclude i q echo others t
        | .error e => (.error e, t) := by
  obtain ⟨t, hleave⟩ : ∃ t, (leave c).Does s () t := by
    cases hc : s.contexts.lookup c with
    | none => exact ⟨s, does_leave_none hc⟩
    | some i =>
        obtain ⟨x, hx, -⟩ := hs.context hc
        obtain ⟨t, hdoes, -⟩ := does_leave_some hs hc hx
        exact ⟨t, hdoes⟩
  cases htimeout : secondsOf t.setup.runTimeoutMs with
  | error e =>
      have hnew := newRun_of_leave_error hleave source values htimeout
      refine ⟨.error e, t, .stranded e hleave, fun others => ⟨?_, ?_⟩⟩
      · simp [bind_apply, hnew others]
      · simp [bind_apply, hnew others]
  | ok timeout =>
      have hnew := newRun_of_leave hleave source values htimeout
      have hx : (entered t c (freshRun t c source values timeout)).runs[t.runs.length]? =
          some (freshRun t c source values timeout) := List.getElem?_concat_length
      obtain ⟨q, v, u, n, hready, hprepare, hdraw, hembarked⟩ := Run.does_embark_new hx rfl
      have hembark : (Run.embark t.runs.length none).Does _ q u :=
        (does_change _).bind (hready.bind hprepare)
      refine ⟨.ok (t.runs.length, q), u, .begun hleave htimeout hembarked, fun others => ⟨?_, ?_⟩⟩
      · exact (hnew.step _ others).trans (hembark.step _ others)
      · exact (hnew.step _ others).trans (Run.start_eq_conclude hx rfl hdraw hprepare echo)

theorem ensureIdle_cases (hs : s.Sane) (c : String) :
    Idle c s ∧ (ensureIdle c).Does s () s ∨ ∃ e, ∀ others,
    ensureIdle c others s = (.error e, s) := by
  cases hc : s.contexts.lookup c with
  | none =>
      have hidle : Idle c s := fun i x hi _ => absurd (hc.symm.trans hi) nofun
      exact .inl ⟨hidle, does_ensureIdle hs hidle⟩
  | some i =>
      obtain ⟨x, hx, -⟩ := hs.context hc
      cases hf : x.inFlight with
      | false =>
          have hidle : Idle c s := by
            intro j y hj hy
            obtain rfl := Option.some.inj (hc.symm.trans hj)
            obtain rfl := Option.some.inj (hx.symm.trans hy)
            exact hf
          exact .inl ⟨hidle, does_ensureIdle hs hidle⟩
      | true =>
          have hrun : (Sandbox.run i).Does s x s := does_need hx
          refine .inr ⟨.contextInFlight c, fun others => ?_⟩
          simp [ensureIdle, bind_apply, Op.view, run?, hc, hrun others, hf, Op.fail]

/-- A submission is the beginning of an attempt, in which nobody else acts, and the rest. -/
theorem embark_embarks (hs : s.Sane) (c : String) (source : Source) (prior : List Json)
    (newest : Option Json) : ∃ res t, Embarks c s res t ∧ ∀ others,
      embark c source prior newest others s = (res, t) ∧
      submit c source prior newest others s =
        match res with
        | .ok (i, q) => Run.conclude i q newest others t
        | .error e => (.error e, t) := by
  obtain ⟨hidle, hensure⟩ | ⟨e, hensure⟩ := ensureIdle_cases hs c
  · cases newest with
    | none =>
        obtain ⟨res, t, hembarks, hrest⟩ :=
          newRun_embarks hs c source (prior.map Execution.asText) none
        exact ⟨res, t, hembarks, fun others => ⟨(hensure.step _ others).trans (hrest others).1,
          (hensure.step _ others).trans (hrest others).2⟩⟩
    | some value =>
        obtain hres | ⟨i, x, hc, hx, hcont, hres⟩ :=
          does_resumable hs c source (prior.map Execution.asText)
        · obtain ⟨res, t, hembarks, hrest⟩ := newRun_embarks hs c source
            (prior.map Execution.asText ++ [Execution.asText value]) (some value)
          refine ⟨res, t, hembarks, fun others => ⟨?_, ?_⟩⟩
          · exact (hensure.step _ others).trans ((hres.step _ others).trans (hrest others).1)
          · exact (hensure.step _ others).trans ((hres.step _ others).trans (hrest others).2)
        · obtain ⟨x', hx', -, howner, -⟩ := hs.context hc
          obtain rfl := Option.some.inj (hx.symm.trans hx')
          have hawaits : x.awaitsInput = true := by
            simp only [continues, Bool.and_eq_true] at hcont
            exact hcont.1.2
          obtain ⟨q, v, t, hready, hprepare, hembarked⟩ := Run.does_embark_again hx howner value
          have hembark : (Run.embark i (some value)).Does s q t :=
            (does_change _).bind (hready.bind hprepare)
          refine ⟨.ok (i, q), t, .again hc hx (hidle hc hx) hembarked, fun others => ⟨?_, ?_⟩⟩
          · exact (hensure.step _ others).trans ((hres.step _ others).trans
              (hembark.step _ others))
          · exact (hensure.step _ others).trans ((hres.step _ others).trans
              (Run.resume_eq_conclude hx (hidle hc hx) hawaits hready hprepare))
  · refine ⟨.error e, s, .refused e, fun others => ⟨?_, ?_⟩⟩
    · simp [embark, bind_apply, hensure others]
    · simp [submit, bind_apply, hensure others]

end Contexts

end Rerun
