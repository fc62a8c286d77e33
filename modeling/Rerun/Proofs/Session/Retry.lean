import Rerun.Proofs.Sandbox.Conduct
import Rerun.Proofs.Sandbox.Flights
import Rerun.Proofs.Session.Submission

/-!
Resumes that fail. A resume puts its value into the queue of the run before it tries the program
again, and nobody takes the value out when the attempt fails. The run waits for input as before,
with its seed and its last outcome, but its queue has grown: the same value given once more is the
second one of its kind, and a submission that repeats the one that failed does not continue the run
but leaves it for a new one.
-/

namespace Rerun

open Sandbox Op

variable {s t u : Sandbox} {others : Interrupts} {i : Nat} {x : RunInfo}

namespace RunInfo

def adding (x : RunInfo) (value : Json) : RunInfo :=
  { x with queue := x.queue.append (Execution.asText value) }

theorem values_adding (x : RunInfo) (value : Json) :
    (x.adding value).queue.values = x.queue.values ++ [Execution.asText value] := rfl

theorem Same.adding {x y : RunInfo} (h : x.Same y) (value : Json) :
    (x.adding value).Same (y.adding value) :=
  { h with
    values := by
      rw [values_adding, values_adding, h.values] }

theorem Same.request {x y : RunInfo} (h : x.Same y) (i : Nat) (n : Int) :
    y.request i n = x.request i n := by
  rw [RunInfo.request, RunInfo.request, h.source, h.key, h.timeout, h.runId, h.values]

theorem Same.values_ne {x y : RunInfo} {value : Json} (h : (x.adding value).Same y) :
    y.queue.values ≠ x.queue.values := by
  rw [h.values, values_adding]
  intro heq
  have hlength := congrArg List.length heq
  rw [List.length_append, List.length_singleton] at hlength
  omega

end RunInfo

/-! ### Taking a run -/

namespace Run

/-- A run that is resumed is in flight, with the value in its queue. -/
def resumed (s : Sandbox) (i : Nat) (value : Json) : Sandbox :=
  { s with runs := s.runs.modify i fun r => { r.adding value with inFlight := true } }

theorem resume_prepared (hx : s.runs[i]? = some x) (hidle : x.inFlight = false)
    (hawaits : x.awaitsInput = true) (value : Json) :
    ∃ n t, Prepared (resumed s i value) i { x.adding value with inFlight := true } n t ∧
      ∀ others, resume Contexts.onSweep i value others s =
        conclude i ((x.adding value).request i n) (some value) others t := by
  have hready : (ready i (some value)).Does (begun s i) () (resumed s i value) := by
    intro others
    refine congrArg (fun rs => (Except.ok (), { s with runs := rs })) ?_
    exact List.modify_modify_eq _ _ _ _
  have hx' : (resumed s i value).runs[i]? = some { x.adding value with inFlight := true } :=
    Table.getElem?_modify_eq_some.mpr ⟨x, hx, by rw [if_pos rfl]⟩
  obtain ⟨n, t, hprepare, hprepared⟩ := does_prepare_any hx'
  exact ⟨n, t, hprepared, fun others => resume_eq_conclude hx hidle hawaits hready hprepare⟩

theorem sane_resumed (hs : s.Sane) (i : Nat) (value : Json) : (resumed s i value).Sane :=
  hs.modifyRun i fun _ => ⟨rfl, rfl, rfl, rfl⟩

theorem resume_of_inFlight (hx : s.runs[i]? = some x) (hflight : x.inFlight = true) (value : Json)
    (others : Interrupts) : resume Contexts.onSweep i value others s =
      (.error (.resumeInFlight x.runId), s) := by
  have hrun : (run i).Does s x s := does_need hx
  rw [resume, inFlight, hrun.step, if_pos hflight]
  rfl

end Run

namespace Contexts

variable {c : String} {source : Source} {prior : List Json}

/-- What a new run asks for is made of the values that it begins with, and of the seed that is drawn
for it. -/
theorem start_entered (s : Sandbox) (c : String) (source : Source) (values : List String)
    (timeout : Binary64) (echo : Option Json) :
    ∃ n t, (∀ others, Run.start onSweep s.runs.length echo others
        (entered s c (freshRun s c source values timeout)) = Run.conclude s.runs.length
          ((freshRun s c source values timeout).request s.runs.length n) echo others t) ∧
      (s.engineSeeds.lookup (Run.idOf (s.drawnIds + 1)) = none → n = s.seedAt 0) := by
  let x := freshRun s c source values timeout
  let v := Run.begun (entered s c x) s.runs.length
  have hx : (entered s c x).runs[s.runs.length]? = some x := List.getElem?_concat_length
  have hv : v.runs[s.runs.length]? = some { x with inFlight := true } :=
    Table.getElem?_modify_eq_some.mpr ⟨x, hx, by rw [if_pos rfl]⟩
  obtain ⟨m, u, hdraw, hadds, hfound, hnext⟩ := Seeds.draw_adds v .engine x.runId
  rw [← hadds.runs] at hv
  obtain ⟨n, t, hprepare, hprepared⟩ := Run.does_prepare_any hv
  -- The run has its seed by now, so that its attempt draws no other one.
  obtain rfl : m = n := Option.some.inj ((hprepared.kept hfound).symm.trans hprepared.found)
  exact ⟨m, t, fun _ => Run.start_eq_conclude hx rfl hdraw hprepare echo, hnext⟩

theorem idOf_ne (hs : s.Sane) (hids : s.drawnIds + 1 < 16 ^ 8) (hx : s.runs[i]? = some x) :
    Run.idOf (s.drawnIds + 1) ≠ x.runId := by
  intro heq
  have hd := (hs.addRun (x := freshRun s "" ⟨"", "", ""⟩ [] (.ofInt 0)) rfl).distinctRuns hids
  have hi := hd i _ x _ (Table.getElem?_concat_of_some hx) List.getElem?_concat_length heq.symm
  exact absurd hi (Nat.ne_of_lt (List.getElem?_eq_some_iff.mp hx).1)

/-- A submission that does not continue the run of its context leaves that run for a new one. -/
theorem submit_afresh (hs : s.Sane) (hc : s.contexts.lookup c = some i)
    (hx : s.runs[i]? = some x) (hidle : x.inFlight = false) {prior : List Json} (value : Json)
    (hcontinues : continues x source (prior.map Execution.asText) = false) :
    ∃ q n t, (∀ others, submit c source prior (some value) others s =
        Run.conclude s.runs.length q (some value) others t) ∧
      q.runId = some (Run.idOf (s.drawnIds + 1)) ∧ q.seed = some n ∧
      q.values = prior.map Execution.asText ++ [Execution.asText value] ∧
      (s.engineSeeds.lookup (Run.idOf (s.drawnIds + 1)) = none → n = s.seedAt 0) := by
  have hidle' : Idle c s := by
    intro j y hj hy
    obtain rfl := Option.some.inj (hc.symm.trans hj)
    obtain rfl := Option.some.inj (hx.symm.trans hy)
    exact hidle
  have hensure := does_ensureIdle hs hidle'
  have hresumable : (resumable c source (prior.map Execution.asText)).Does s none s := by
    have hrun : (Sandbox.run i).Does s x s := does_need hx
    intro others
    simp only [resumable, run?, bind_apply, Op.view, hc, hrun others, hcontinues,
      Bool.false_eq_true, if_false, pure_apply]
  obtain ⟨u, hleave, htorn⟩ := does_leave_some hs hc hx
  obtain ⟨y, -, -, -, htimeout⟩ := hs.context hc
  have hsetup : u.setup = s.setup := by
    rw [htorn.tables]
    rfl
  have hdrawn : u.drawnIds = s.drawnIds := by
    rw [htorn.tables]
    rfl
  have hlength : u.runs.length = s.runs.length := by
    rw [htorn.tables]
    exact List.length_modify _ _ _
  rw [← hsetup] at htimeout
  let values := prior.map Execution.asText ++ [Execution.asText value]
  have hnew := newRun_of_leave hleave source values htimeout
  obtain ⟨n, t, hstart, hseed⟩ := start_entered u c source values y.timeout (some value)
  rw [hdrawn] at hseed
  refine ⟨(freshRun u c source values y.timeout).request u.runs.length n, n, t, fun others => ?_,
    ?_, rfl, rfl, fun hnone => ?_⟩
  · rw [← hlength]
    exact (hensure.step _ others).trans ((hresumable.step _ others).trans
      ((hnew.step _ others).trans (hstart others)))
  · exact congrArg (fun k => some (Run.idOf (k + 1))) hdrawn
  · have hseedAt : u.seedAt 0 = s.seedAt 0 := by
      rw [htorn.tables]
      rfl
    rw [← hseedAt]
    refine hseed ?_
    rw [htorn.tables]
    show (Assoc.drop s.engineSeeds x.runId).lookup _ = none
    rw [Assoc.lookup_drop]
    split
    · rfl
    · exact hnone

end Contexts

/-! ### Resumes that fail -/

namespace Run

/-- What a resume that fails leaves of the run `x`. -/
structure Remains (s : Sandbox) (i : Nat) (x : RunInfo) (value : Json) (t : Sandbox) : Prop where
  sane : t.Sane
  /-- A run that was in flight has refused. -/
  refused : x.inFlight = true → t = s
  /-- The run is the same, but its queue holds the value, unless the run was in flight. -/
  run : ∃ y, t.runs[i]? = some y ∧ (if x.inFlight then x else x.adding value).Same y
  seed {n : Int} : (Seeds.table x.owner s).lookup x.runId = some n →
    (Seeds.table x.owner t).lookup x.runId = some n
  place {c : String} : s.contexts.lookup c = some i → t.contexts.lookup c = some i
  /-- By now it has a seed in any case. -/
  seeded : x.inFlight = false → ∃ n, (Seeds.table x.owner t).lookup x.runId = some n

theorem resume_remains (hs : s.Sane) (hids : s.drawnIds < 16 ^ 8) (ho : others.Stepwise)
    (hspare : others.Spare i) (hx : s.runs[i]? = some x) (hawaits : x.awaitsInput = true)
    {value : Json} {e : Failure}
    (h : resume Contexts.onSweep i value others s = (.error e, t)) : Remains s i x value t := by
  cases hflight : x.inFlight with
  | true =>
      rw [resume_of_inFlight hx hflight] at h
      obtain ⟨-, rfl⟩ := Prod.mk.inj h
      refine ⟨hs, fun _ => rfl, ⟨x, hx, ?_⟩, id, id,
        fun hidle => absurd (hflight.symm.trans hidle) nofun⟩
      rw [if_pos hflight]
      exact .refl x
  | false =>
      obtain ⟨n, u, hprepared, hresume⟩ := resume_prepared hx hflight hawaits value
      have hu : u.Sane := hprepared.sane (sane_resumed hs i value)
      have hdrawn : u.drawnIds < 16 ^ 8 := by
        rw [hprepared.drawnIds]
        exact hids
      rw [hresume others] at h
      have hsane : t.Sane := by
        have hsteps := stepwise_conclude i ((x.adding value).request i n) (some value) ho u hu
        rw [h] at hsteps
        exact hsteps.sane hu
      obtain ⟨v, hsteady, rfl⟩ := conclude_error hu (hu.distinctRuns hdrawn) hspare h
      -- The run was in flight from the moment it was taken to the end of its attempt.
      obtain ⟨y, hy, hxy⟩ := hprepared.run
      obtain ⟨⟨z, hz, hyz⟩, hseed, hplace⟩ := hsteady hy hxy.inFlight
      have hsame := hxy.trans hyz
      have hfound {m : Int} (hm : (Seeds.table x.owner u).lookup x.runId = some m) :
          (Seeds.table x.owner (landed v i)).lookup x.runId = some m := by
        rw [landed, Seeds.table_withRuns]
        rw [hxy.owner, hxy.runId] at hseed
        exact hseed hm
      refine ⟨hsane, fun hf => absurd (hflight.symm.trans hf) nofun,
        ⟨{ z with inFlight := false }, ?_, ?_⟩, fun hm => hfound (hprepared.kept ?_),
        fun hc => hplace ?_, fun _ => ⟨n, hfound hprepared.found⟩⟩
      · exact Table.getElem?_modify_eq_some.mpr ⟨z, hz, by rw [if_pos rfl]⟩
      · rw [if_neg (by rw [hflight]; decide)]
        exact { hsame with inFlight := hflight.symm }
      · rw [resumed, Seeds.table_withRuns]
        exact hm
      · rw [hprepared.contexts]
        exact hc

/-- What a resume that fails comes to when it is tried again. -/
structure Failed (s : Sandbox) (i : Nat) (x : RunInfo) (value : Json) (t : Sandbox) : Prop
    extends Remains s i x value t where
  /-- The queue is as before only if the run was in flight. -/
  undone : (∃ y, t.runs[i]? = some y ∧ y.queue.values = x.queue.values) ↔ x.inFlight = true
  /-- Another resume with the value is one of the same run, with its seed, but with the value
  twice. -/
  again : x.inFlight = false → ∃ n u, (Seeds.table x.owner t).lookup x.runId = some n ∧
    ∀ others, resume Contexts.onSweep i value others t =
      conclude i (((x.adding value).adding value).request i n) (some value) others u
  /-- The submission that was to resume the run is one of another run, with a seed of its own. -/
  afresh {c : String} {prior : List Json} : x.inFlight = false → s.contexts.lookup c = some i →
    prior.map Execution.asText = x.queue.values → ∃ q n u,
      (∀ others, Contexts.submit c x.source prior (some value) others t =
        conclude t.runs.length q (some value) others u) ∧
      q.runId = some (idOf (t.drawnIds + 1)) ∧
      (t.drawnIds + 1 < 16 ^ 8 → idOf (t.drawnIds + 1) ≠ x.runId) ∧
      q.values = x.queue.values ++ [Execution.asText value] ∧ q.seed = some n ∧
      (t.engineSeeds.lookup (idOf (t.drawnIds + 1)) = none → n = t.seedAt 0)

/-- A failure does not undo a resume, unless it refuses it. -/
theorem resume_failed (hs : s.Sane) (hids : s.drawnIds < 16 ^ 8) (ho : others.Stepwise)
    (hspare : others.Spare i) (hx : s.runs[i]? = some x) (hawaits : x.awaitsInput = true)
    {value : Json} {e : Failure}
    (h : resume Contexts.onSweep i value others s = (.error e, t)) : Failed s i x value t := by
  have hremains := resume_remains hs hids ho hspare hx hawaits h
  obtain ⟨y, hy, hsame⟩ := hremains.run
  refine { hremains with undone := ⟨?_, ?_⟩, again := ?_, afresh := ?_ }
  · rintro ⟨z, hz, hvalues⟩
    obtain rfl := Option.some.inj (hy.symm.trans hz)
    cases hflight : x.inFlight with
    | true => rfl
    | false =>
        rw [if_neg (by rw [hflight]; decide)] at hsame
        exact absurd hvalues hsame.values_ne
  · intro hflight
    rw [if_pos hflight] at hsame
    exact ⟨y, hy, hsame.values⟩
  · intro hidle
    rw [if_neg (by rw [hidle]; decide)] at hsame
    obtain ⟨m, hm⟩ := hremains.seeded hidle
    obtain ⟨n, u, hprepared, hagain⟩ := resume_prepared hy (hsame.inFlight.trans hidle)
      (hsame.awaitsInput.trans hawaits) value
    have hkept : (Seeds.table x.owner u).lookup x.runId = some m := hprepared.kept (by
      rw [resumed, Seeds.table_withRuns]
      exact hm)
    have howner : y.owner = x.owner := hsame.owner
    have hrunId : y.runId = x.runId := hsame.runId
    have hfound : (Seeds.table x.owner u).lookup x.runId = some n := by
      rw [← howner, ← hrunId]
      exact hprepared.found
    obtain rfl : m = n := Option.some.inj (hkept.symm.trans hfound)
    refine ⟨m, u, hm, fun others => ?_⟩
    rw [hagain others, (hsame.adding value).request]
  · intro c prior hidle hc hprior
    rw [if_neg (by rw [hidle]; decide)] at hsame
    have hcontinues : Contexts.continues y x.source (prior.map Execution.asText) = false := by
      rw [hprior]
      simp [Contexts.continues, hsame.values_ne]
    obtain ⟨q, n, u, hsubmit, hrunId, hseed, hvalues, hfresh⟩ := Contexts.submit_afresh
      hremains.sane (hremains.place hc) hy (hsame.inFlight.trans hidle) value hcontinues
    rw [hprior] at hvalues
    refine ⟨q, n, u, hsubmit, hrunId, fun hdrawn => ?_, hvalues, hseed, hfresh⟩
    exact hsame.runId ▸ Contexts.idOf_ne hremains.sane hdrawn hy

end Run

def Failure.isReportedBy {α : Type} : Except Failure α → Bool
  | .ok _ => false
  | .error e => e.isSandbox

theorem Failure.isReportedBy_iff {α : Type} {r : Except Failure α} :
    isReportedBy r = true ↔ ∃ e, r = .error e ∧ e.isSandbox = true := by
  cases r with
  | ok a => simp [isReportedBy]
  | error e => simp [isReportedBy]

/-- A sandbox in which one interpreter starts, and the next two do not. -/
def Sandbox.barren : Sandbox :=
  { usual with scripts := [{}, { spawnFailure := some "no" }, { spawnFailure := some "no" }] }

/-- The first process has died. -/
def Sandbox.bereaved (s : Sandbox) : Sandbox :=
  { s with children := s.children.modify 0 fun c => { c with alive := false } }

/-- A run waits for input, but its interpreter has died and no other one starts. -/
def Sandbox.parked : Sandbox :=
  (Contexts.submit "a" Contexts.reading [] none (orderly 0) barren).2.bereaved

theorem Sandbox.Sane.bereaved (hs : s.Sane) : s.bereaved.Sane := hs.modifyChild 0 fun _ => rfl

theorem Sandbox.sane_parked : parked.Sane := by
  have hs : barren.Sane := { fresh_usual.sound.toSane with }
  have hquiet : Interrupts.Stepwise (orderly 0) := fun _ s _ => .refl s
  have hsubmit := Contexts.stepwise_submit "a" Contexts.reading [] none hquiet barren hs
  rw [parked]
  exact (hsubmit.sane hs).bereaved

/-- The value stays in the queue when no interpreter can be started. -/
theorem Run.resume_failed_parked : ∃ x e t, Sandbox.parked.runs[0]? = some x ∧
    x.awaitsInput = true ∧ x.inFlight = false ∧
    resume Contexts.onSweep 0 (.str "x") (orderly 0) Sandbox.parked = (.error e, t) ∧
    e.isSandbox = true ∧ Failed Sandbox.parked 0 x (.str "x") t := by
  obtain ⟨hrun, hids, hfails⟩ :
      Sandbox.parked.runs[0]?.any (fun x => x.awaitsInput && !x.inFlight) = true ∧
      Sandbox.parked.drawnIds < 16 ^ 8 ∧
      Failure.isReportedBy
        (resume Contexts.onSweep 0 (.str "x") (orderly 0) Sandbox.parked).1 = true := by
    decide +kernel
  have hsane := Sandbox.sane_parked
  generalize Sandbox.parked = s at *
  obtain ⟨x, hx, hwaits⟩ := (Option.any_eq_true _ _).mp hrun
  rw [Bool.and_eq_true, Bool.not_eq_true'] at hwaits
  obtain ⟨e, he, hsandbox⟩ := Failure.isReportedBy_iff.mp hfails
  have hresume : resume Contexts.onSweep 0 (.str "x") (orderly 0) s =
      (.error e, (resume Contexts.onSweep 0 (.str "x") (orderly 0) s).2) := Prod.ext he rfl
  have hquiet : Interrupts.Stepwise (orderly 0) := fun _ s _ => .refl s
  have hspare : Interrupts.Spare (orderly 0) 0 := fun _ s => (isFrame_steady 0).same (.refl s)
  exact ⟨x, e, _, hx, hwaits.1, hwaits.2, hresume, hsandbox,
    resume_failed hsane hids hquiet hspare hx hwaits.1 hresume⟩

end Rerun
