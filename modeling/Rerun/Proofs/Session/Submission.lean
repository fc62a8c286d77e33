import Rerun.Proofs.Sandbox.Answers
import Rerun.Proofs.Sandbox.Flights
import Rerun.Proofs.Sandbox.Reach

/-!
A submission beside a single execution of its program. Whether the run of the context is resumed or
a new one takes its place, and whatever became of its session before, the program is run from its
top with all values and with the seed of the run. It comes to what it comes to on an interpreter
that is started for it alone, as long as the folder of the session is there.
-/

namespace Rerun

open Sandbox Op

variable {s t u : Sandbox} {others : Interrupts}

/-- Two states in which interpreters are started, and answer, alike. -/
structure Sandbox.Alike (s t : Sandbox) : Prop where
  setup : t.setup = s.setup
  clock : t.clock = s.clock
  scripts : t.scripts = s.scripts
  byInputs : t.byInputs = s.byInputs
  replies : t.replies = s.replies

theorem Sandbox.Alike.answering (h : s.Alike t) (hs : s.Answering) : t.Answering where
  plain := h.byInputs.trans hs.plain
  next {replies} hmem := by
    refine hs.next ?_
    rw [upcoming, ← h.replies, ← h.scripts]
    exact hmem

theorem Sandbox.Alike.starts (h : s.Alike t) (hs : s.Sane) (ht : t.Sane) {key : String}
    {others' : Interrupts} {r : Nat} (hstart : Registry.start key others' s = (.ok r, u)) :
    ∃ r u, Registry.start key others' t = (.ok r, u) := by
  obtain ⟨p, script, -, -, hnew⟩ :=
    Registry.newSession_of_start hs hstart ht h.setup h.scripts h.clock others'
  obtain ⟨r, u, -, -, -, hstart, -⟩ := hnew
  exact ⟨r, u, hstart⟩

/-! ### Attempts -/

namespace Run

variable {i : Nat}

/-- An attempt up to its request. -/
def approach (i : Nat) : Op Unit := do
  let request ← prepare i
  let _ ← Registry.acquire Contexts.onSweep (some request.key)

/-- A run that is started, or resumed with a value, up to the request of its attempt. -/
def opening (i : Nat) (added : Option Json) : Op Unit := do
  setRun i fun r => { r with inFlight := true }
  ready i added
  approach i

theorem attempt_eq {request : Execution.Request} (hprepare : (prepare i).Does s request t)
    {o : Outcome} (hexecute : Execution.execute Contexts.onSweep (markConsumed i) request others t =
      (.ok o, u)) (echo : Option Json) :
    attempt Contexts.onSweep i echo others s = (.ok (o.echoing echo), { u with
      runs := u.runs.modify i fun r => { r with last := some (o.echoing echo) } }) :=
  (hprepare.step _ others).trans (bind_of_eq_ok hexecute _)

theorem attempt_gives {request : Execution.Request} {result : Except Failure Outcome}
    (hprepare : (prepare i).Does s request t)
    (hexecute : Execution.execute Contexts.onSweep (markConsumed i) request others t = (result, u))
    (echo : Option Json) : ∃ v, attempt Contexts.onSweep i echo others s =
      (result.map (·.echoing echo), v) ∧ v.engineSeeds = u.engineSeeds := by
  cases result with
  | ok o => exact ⟨_, attempt_eq hprepare hexecute echo, rfl⟩
  | error e => exact ⟨u, (hprepare.step _ others).trans (bind_of_eq_error hexecute _), rfl⟩

end Run

namespace Contexts

variable {c : String} {i : Nat} {source : Source} {values prior : List String} {timeout : Binary64}

/-- A submission up to its request. -/
def opening (context : String) (source : Source) (prior : List Json) (newest : Option Json) :
    Op Unit := do
  let prior := prior.map Execution.asText
  ensureIdle context
  match newest with
  | none => do
    let i ← newRun context source prior
    Run.opening i none
  | some value =>
    match ← resumable context source prior with
    | some i => Run.opening i (some value)
    | none => do
      let i ← newRun context source (prior ++ [Execution.asText value])
      Run.opening i none

/-- A run that a submission has taken: it is in flight, with the program and the values of the
submission. -/
structure Taken (c : String) (source : Source) (values : List String) (timeout : Binary64)
    (s t : Sandbox) (i : Nat) (x : RunInfo) : Prop where
  sane : t.Sane
  alike : s.Alike t
  free : Registry.Free (runKey c) t
  ids : t.drawnIds ≤ s.drawnIds + 1
  run : t.runs[i]? = some x
  inFlight : x.inFlight = true
  source : x.source = source
  values : x.queue.values = values
  timeout : x.timeout = timeout
  key : x.key = runKey c
  owner : x.owner = .engine
  place : t.contexts.lookup c = some i

theorem taken_new (hs : s.Sound) (hidle : Idle c s) (source : Source) (values : List String)
    (htimeout : secondsOf s.setup.runTimeoutMs = .ok timeout) :
    ∃ t i x n u, (newRun c source values).Does s i t ∧ t.runs[i]? = some x ∧ x.inFlight = false ∧
      (Seeds.draw x.owner x.runId).Does (Run.begun t i) n u ∧
      Taken c source values timeout s u i { x with inFlight := true } := by
  obtain ⟨l, hleft, hnew⟩ := does_newRun hs c source values htimeout
  obtain ⟨hentered, hm⟩ := sound_entered hleft source values htimeout
  have hrun : (entered l c (freshRun l c source values timeout)).runs[l.runs.length]? =
      some (freshRun l c source values timeout) := List.getElem?_concat_length
  obtain ⟨n, u, hdraw, hdrawn⟩ := Seeds.does_draw
    (Run.begun (entered l c (freshRun l c source values timeout)) l.runs.length)
    (freshRun l c source values timeout).runId
  -- Leaving the run before takes sessions down, but makes nobody hold one.
  have hfree := (Run.free_of_idle hs hidle).meanwhile hs.toSane hm
  refine ⟨_, _, _, n, u, hnew, hrun, rfl, hdraw, ?_⟩
  rw [hdrawn.tables]
  exact {
    sane := { Run.sound_begun hentered l.runs.length with }
    alike := {
      setup := hleft.meanwhile.setup
      clock := congrArg (·.clock) hleft.tables
      scripts := congrArg (·.scripts) hleft.tables
      byInputs := congrArg (·.byInputs) hleft.tables
      replies := hleft.replies }
    free := fun _ _ hr hy => hfree hr hy
    ids := Nat.le_of_eq (congrArg (·.drawnIds + 1) hleft.tables)
    run := Table.getElem?_modify_eq_some.mpr ⟨_, hrun, by rw [if_pos rfl]⟩
    inFlight := rfl
    source := rfl
    values := rfl
    timeout := rfl
    key := rfl
    owner := rfl
    place := Assoc.lookup_put_self _ _ _ }

theorem taken_resumed (hs : s.Sound) (hidle : Idle c s)
    (htimeout : secondsOf s.setup.runTimeoutMs = .ok timeout) {x : RunInfo}
    (hc : s.contexts.lookup c = some i) (hx : s.runs[i]? = some x)
    (hcont : continues x source prior = true) (value : Json) :
    x.awaitsInput = true ∧ ∃ t, (Run.ready i (some value)).Does (Run.begun s i) () t ∧
      Taken c source (prior ++ [Execution.asText value]) timeout s t i { x with
        inFlight := true, queue := x.queue.append (Execution.asText value) } ∧
      s.SameIds t ∧ t.engineSeeds = s.engineSeeds := by
  simp only [continues, Bool.and_eq_true, decide_eq_true_eq] at hcont
  obtain ⟨⟨hsource, hawaits⟩, hvalues⟩ := hcont
  obtain ⟨x', hx', hkey, howner, htimeout'⟩ := hs.context hc
  obtain rfl := Option.some.inj (hx.symm.trans hx')
  have hfree := Run.free_of_idle hs hidle
  refine ⟨hawaits, _, does_change _, ?_, isFrame_sameIds.trans (Run.sameIds_begun s i)
    (.modifyRun _ i (fun r => { r with queue := r.queue.append (Execution.asText value) })
      fun _ => rfl), rfl⟩
  exact {
    sane := (Run.sound_begun hs i).toSane.modifyRun i fun _ => ⟨rfl, rfl, rfl, rfl⟩
    alike := ⟨rfl, rfl, rfl, rfl, rfl⟩
    free := fun _ _ hr hy => hfree hr hy
    ids := Nat.le_succ _
    run := Table.getElem?_modify_eq_some.mpr ⟨_, Table.getElem?_modify_eq_some.mpr ⟨x, hx, rfl⟩, by
      rw [if_pos rfl, if_pos rfl]⟩
    inFlight := rfl
    source := hsource
    values := congrArg (· ++ _) hvalues
    timeout := Except.ok.inj (htimeout'.symm.trans htimeout)
    key := hkey
    owner := howner
    place := hc }

/-- A submission that continues the run of its context takes that run, and makes an attempt at
it. -/
theorem submit_resumed (hs : s.Sound) (hidle : Idle c s)
    (htimeout : secondsOf s.setup.runTimeoutMs = .ok timeout) {prior : List Json} {x : RunInfo}
    (hc : s.contexts.lookup c = some i) (hx : s.runs[i]? = some x)
    (hcont : continues x source (prior.map Execution.asText) = true) (value : Json) :
    ∃ t, Taken c source (prior.map Execution.asText ++ [Execution.asText value]) timeout s t i
        { x with inFlight := true, queue := x.queue.append (Execution.asText value) } ∧
      s.SameIds t ∧ t.engineSeeds = s.engineSeeds ∧
      ∀ others, opening c source prior (some value) others s = Run.approach i others t ∧
        ∀ res u, Run.attempt onSweep i (some value) others t = (res, u) →
          submit c source prior (some value) others s = (res, Run.landed u i) := by
  have hensure := does_ensureIdle hs.toSane hidle
  have hres := does_resumable_of_continues hc hx hcont
  obtain ⟨hawaits, t, happend, htaken, hids, hseeds⟩ :=
    taken_resumed hs hidle htimeout hc hx hcont value
  refine ⟨t, htaken, hids, hseeds, fun others => ⟨?_, fun res u hattempt => ?_⟩⟩
  · exact (hensure.step _ others).trans ((hres.step _ others).trans
      (((does_change _).step _ others).trans (happend.step _ others)))
  · exact (hensure.step _ others).trans ((hres.step _ others).trans
      (Run.resume_eq hx (hidle hc hx) hawaits happend hattempt))

theorem submit_taken (hs : s.Sound) (hidle : Idle c s)
    (htimeout : secondsOf s.setup.runTimeoutMs = .ok timeout) (source : Source)
    (prior : List Json) (newest : Option Json) :
    ∃ t i x, Taken c source ((prior ++ newest.toList).map Execution.asText) timeout s t i x ∧
      ∀ others, opening c source prior newest others s = Run.approach i others t ∧
        ∀ res u, Run.attempt onSweep i newest others t = (res, u) →
          submit c source prior newest others s = (res, Run.landed u i) := by
  have hensure := does_ensureIdle hs.toSane hidle
  -- A submission without a new value, and one that continues nothing, differ in the values alone.
  have hnew (values : List String) (echo : Option Json) : ∃ t i x,
      Taken c source values timeout s t i x ∧ ∀ others,
        (do let i ← newRun c source values; Run.opening i none) others s = Run.approach i others t ∧
        ∀ res u, Run.attempt onSweep i echo others t = (res, u) →
          (do let i ← newRun c source values; Run.start onSweep i echo) others s =
            (res, Run.landed u i) := by
    obtain ⟨l, i, x, n, t, hnew, hx, hfresh, hdraw, htaken⟩ :=
      taken_new hs hidle source values htimeout
    have hready : (Run.ready i none).Does (Run.begun l i) () t :=
      (Run.does_run_begun hx).bind (hdraw.bind (does_pure _))
    refine ⟨t, i, _, htaken, fun others => ⟨?_, fun res u hattempt => ?_⟩⟩
    · exact (hnew.step _ others).trans (((does_change _).step _ others).trans
        (hready.step _ others))
    · exact (hnew.step _ others).trans (Run.start_eq hx hfresh hdraw hattempt)
  cases newest with
  | none =>
      obtain ⟨t, i, x, htaken, hrest⟩ := hnew (prior.map Execution.asText) none
      refine ⟨t, i, x, by simpa using htaken, fun others => ⟨?_, fun res u hattempt => ?_⟩⟩
      · exact (hensure.step _ others).trans (hrest others).1
      · exact (hensure.step _ others).trans ((hrest others).2 res u hattempt)
  | some value =>
      have hvalues : (prior ++ (some value).toList).map Execution.asText =
          prior.map Execution.asText ++ [Execution.asText value] := List.map_append
      rw [hvalues]
      obtain hres | ⟨i, x, hc, hx, hcont, -⟩ :=
        does_resumable hs.toSane c source (prior.map Execution.asText)
      · obtain ⟨t, i, x, htaken, hrest⟩ :=
          hnew (prior.map Execution.asText ++ [Execution.asText value]) (some value)
        refine ⟨t, i, x, htaken, fun others => ⟨?_, fun res u hattempt => ?_⟩⟩
        · exact (hensure.step _ others).trans ((hres.step _ others).trans (hrest others).1)
        · exact (hensure.step _ others).trans
            ((hres.step _ others).trans ((hrest others).2 res u hattempt))
      · obtain ⟨t, htaken, -, -, hrest⟩ := submit_resumed hs hidle htimeout hc hx hcont value
        exact ⟨t, i, _, htaken, hrest⟩

/-- The state in which the request of an attempt is made, at a run that was taken: the request
brings the seed of the run. -/
structure Posed (c : String) (s t : Sandbox) (i : Nat) (x : RunInfo) (n : Int) (t₁ : Sandbox) :
    Prop where
  prepared : (Run.prepare i).Does t (x.request i n) t₁
  drawn : Seeds.Drawn (Run.rewound t i) x.runId n t₁
  sane : t₁.Sane
  alike : s.Alike t₁
  free : Registry.Free (runKey c) t₁
  run : t₁.runs[i]? = some { x with queue := x.queue.rewind, attempts := x.attempts + 1 }
  ids : t.SameIds t₁
  contexts : t₁.contexts = t.contexts

theorem Taken.posed {x : RunInfo} (h : Taken c source values timeout s t i x) :
    ∃ n t₁, Posed c s t i x n t₁ := by
  obtain ⟨n, t₁, hprepare, hdrawn⟩ := Run.does_prepare h.run h.owner
  have ht₁ := hdrawn.tables
  have hruns : t₁.runs = (Run.rewound t i).runs := by rw [ht₁]
  refine ⟨n, t₁, hprepare, hdrawn, ?_, ?_, ?_, ?_, ?_, ?_⟩
  · rw [ht₁]
    exact { h.sane.modifyRun i (f := fun r =>
      { r with queue := r.queue.rewind, attempts := r.attempts + 1 })
      (fun _ => ⟨rfl, rfl, rfl, rfl⟩) with }
  · rw [ht₁]
    exact { h.alike with }
  · rw [ht₁]
    exact fun _ _ hr hy => h.free hr hy
  · rw [hruns]
    exact Table.getElem?_modify_eq_some.mpr ⟨x, h.run, by rw [if_pos rfl]⟩
  · rw [SameIds, hruns]
    exact Run.sameIds_rewound t i
  · rw [ht₁]
    rfl

/-- What the request of an attempt comes to, when identities are not mixed up: the outcome of the
program when the folder of the session is there, and a refusal or a failure when it is not. -/
theorem Taken.execute_eq {x : RunInfo} (h : Taken c source values timeout s t i x) (hs : s.Sane)
    (hquiet : others.Quiet) (hanswers : s.Answering) (hdistinct : t.DistinctRuns)
    {others' : Interrupts} {r : Nat} {t₀ : Sandbox}
    (hstart : Registry.start (runKey c) others' s = (.ok r, t₀)) :
    ∃ v p n ms t₁ w, Run.approach i others t = (.ok (), v) ∧
      Registry.folderOf s.setup (runKey c) = .ok p ∧ Posed c s t i x n t₁ ∧
      Execution.execute onSweep (Run.markConsumed i) (x.request i n) others t₁ =
        ((x.request i n).resultIn s.setup (v.folders.has p) (x.request i n).ended.1
          (x.request i n).ended.2 ms, w) ∧ w.engineSeeds.lookup x.runId = some n := by
  obtain ⟨n, t₁, hposed⟩ := h.posed
  -- An interpreter that could be started for the submission can be started for its attempt.
  obtain ⟨r', t', hstart₁⟩ := hposed.alike.starts hs hposed.sane hstart
  have hkey : (x.request i n).key = runKey c := h.key
  have hfree := hposed.free
  rw [← hkey] at hstart₁ hfree
  have hseed : (x.request i n).seed = some n := rfl
  have hne : (x.request i n).key ≠ "" := by
    rw [hkey]
    exact runKey_ne_empty c
  obtain ⟨v, k, y, c', z, ms, w, hacquire, hacquired, hexecute, -, hseeds⟩ :=
    Execution.execute_eq hquiet hposed.sane (hposed.alike.answering hanswers)
      (Run.aside_markConsumed i) hseed rfl hne hfree hstart₁
  obtain ⟨y', hy', hfolder⟩ := hacquired.sane.session hacquired.session
  obtain rfl := Option.some.inj (hacquired.attached.record.symm.trans hy')
  have hsetup : v.setup = s.setup := hacquired.kept.setup.trans hposed.alike.setup
  rw [hsetup, hkey] at hfolder
  rw [hsetup] at hexecute
  refine ⟨v, y.folder, n, ms, t₁, w, (hposed.prepared.step _ others).trans
    (bind_of_eq_ok hacquire _), hfolder, hposed, hexecute, ?_⟩
  rw [hseeds]
  exact (hacquired.kept.seed (hposed.ids.distinctRuns hdistinct) hposed.run h.inFlight).trans
    hposed.drawn.found

theorem Taken.attempt_eq {x : RunInfo} (h : Taken c source values timeout s t i x) (hs : s.Sane)
    (hquiet : others.Quiet) (hanswers : s.Answering) (hids : s.drawnIds + 1 < 16 ^ 8)
    {others' : Interrupts} {r : Nat} {t₀ : Sandbox}
    (hstart : Registry.start (runKey c) others' s = (.ok r, t₀)) (echo : Option Json) :
    ∃ v p n ms u, Run.approach i others t = (.ok (), v) ∧
      Registry.folderOf s.setup (runKey c) = .ok p ∧
      Run.attempt onSweep i echo others t = (((x.request i n).resultIn s.setup (v.folders.has p)
        (x.request i n).ended.1 (x.request i n).ended.2 ms).map (·.echoing echo), u) ∧
      u.engineSeeds.lookup x.runId = some n := by
  obtain ⟨v, p, n, ms, t₁, w, happroach, hfolder, hposed, hexecute, hseed⟩ :=
    h.execute_eq hs hquiet hanswers (h.sane.distinctRuns (Nat.lt_of_le_of_lt h.ids hids)) hstart
  obtain ⟨u, hattempt, hseeds⟩ := Run.attempt_gives hposed.prepared hexecute echo
  exact ⟨v, p, n, ms, u, happroach, hfolder, hattempt, hseeds ▸ hseed⟩

end Contexts

/-! ### Single executions -/

/-- A sandbox that clients have brought about, in which interpreters can be started for a session
and answer, while nobody else acts. -/
structure Sandbox.Serves (s : Sandbox) (key : String) (others : Interrupts) : Prop where
  reachable : Reachable s
  quiet : others.Quiet
  answers : s.Answering
  starts : ∃ others' r t, Registry.start key others' s = (.ok r, t)

namespace Execution

/-- One execution of a program in interactive mode. -/
def single (source : Source) (key : String) (values : List String) (seed : Int)
    (timeout : Binary64) : Request :=
  { source, key, values, seed := some seed, timeout }

namespace Request

theorem runId_outcomeAt (r : Request) (ending : Serving.Ending Unit) (m : Program.Machine)
    (ms : Int) : (r.outcomeAt ending m ms).runId = r.runId := by
  cases ending <;> rfl

end Request

end Execution

namespace Outcome

theorem runId_echoing (o : Outcome) (echo : Option Json) : (o.echoing echo).runId = o.runId := by
  cases echo <;> rfl

end Outcome

namespace Contexts

open Execution

/-- A program that reads a value and shows it. -/
def reading : Source := ⟨"[\"print\", \x7b\"input\": []\x7d]", "", ""⟩

theorem serves_of_ordinary {key : String} (hs : Reachable s) (hby : s.byInputs.isNone = true)
    (hempty : s.upcoming.all (·.isEmpty) = true)
    (hstart : (Registry.start key (orderly 1) s).1.toOption.isSome = true) :
    s.Serves key (orderly 1) where
  reachable := hs
  quiet _ := rfl
  answers := answering_of_ordinary hby hempty
  starts := by
    obtain ⟨r, hr⟩ := eq_ok_of_isSome hstart
    exact ⟨orderly 1, r, _, Prod.ext hr rfl⟩

end Contexts

end Rerun
