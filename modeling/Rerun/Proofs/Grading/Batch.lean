import Rerun.Proofs.Grading.Workers

/-!
The grading of a list of cases (`Grading.batch_isolates`). Options whose time limit is no number of
seconds refuse the whole list. Otherwise, whatever the programs do and whichever turns the workers
take, each case gets a verdict, and that is the one which it gets alone wherever the interpreter
behaves like that, unless another case has taken its session down before it began to hold it. No
session of a case is left, and other sessions are left as they were unless they were idle.
-/

namespace Rerun

open Sandbox Op

variable {s t : Sandbox} {others : Interrupts}

namespace Grading

variable {r : Request} {checker : Checker} {result : Except Failure Outcome} {key : String}
  {b : Sandbox}

/-! ### Verdicts -/

/-- The verdict on a case is the one which it gets alone where its session is asked for: it passes
exactly when the program ends well there and what was expected is accepted. And it is the one which
the case gets alone wherever things behave like that, up to the time and the key of the session. -/
structure AsAlone (r : Request) (checker : Checker) (others : Interrupts) (key : String)
    (b : Sandbox) (v : Verdict) : Prop where
  passed : v.passed = true ↔ ∃ o u, Execution.execute Contexts.onSweep (fun _ => pure ())
      (r.run key b.setup.batchTimeout) others b = (.ok o, u) ∧ o.status = .success ∧
    ∀ want, r.expected = some want → checker.accepts (.str o.stdout) (.str want) = .ok true
  alike {s' : Sandbox} {others' : Interrupts} : others'.Absent →
    Ready [r.run "" s'.setup.batchTimeout] s' → s'.behaviour = b.behaviour →
    ∃ v' t', one Contexts.onSweep r others' s' = (.ok v', t') ∧
      v.Alike key (keyOf (s'.drawnIds + 1)) v'

theorem AsAlone.of_gives (habsent : others.Absent)
    (hchecker : Checker.named r.checker = .ok checker) {p : Path} (hs : b.Sane)
    (huntaken : b.Untaken key p) (hplain : ∀ y ∈ b.scripts, y.Plain)
    (hmet : Execution.Met b.behaviour (r.run key b.setup.batchTimeout))
    (hgives : Execution.Gives b.behaviour (r.run key b.setup.batchTimeout) result) :
    AsAlone r checker others key b (verdict r checker result) where
  passed := by
    obtain ⟨v, u, result', -, -, hexecute, -, hgives', -⟩ :=
      Execution.execute_gives (q := r.run key b.setup.batchTimeout) hs huntaken hplain hmet
      rfl habsent
    have hgives' : Execution.Gives b.behaviour
        { r.run key b.setup.batchTimeout with key := key } result' := hgives'
    have hsame : (verdict r checker result').passed = (verdict r checker result).passed :=
      (verdict_alike (hgives.alike hgives')).passed
    rw [← hsame, passed_verdict]
    constructor
    · rintro ⟨o, rfl, ho⟩
      exact ⟨o, u, hexecute, ho⟩
    · rintro ⟨o, w, hexecute', ho⟩
      exact ⟨o, (Prod.mk.inj (hexecute.symm.trans hexecute')).1, ho⟩
  alike {s' others'} habsent' hs' hsame := by
    obtain ⟨v', t', hone, result', -, -, hgives', rfl⟩ := one_graded habsent' hchecker hs'
    have husual : s'.setup.batchTimeout = b.setup.batchTimeout := congrArg Behaviour.usual hsame
    rw [hsame, husual] at hgives'
    exact ⟨_, t', hone, verdict_alike (hgives.alike hgives')⟩

/-! ### Cases that are finished -/

/-- What becomes of the sessions that there are when cases are graded: no other one is registered
afterwards, and each one is as it was, unless it was idle when a case asked for its own. -/
structure SparesAll (log : List Asking) (s t : Sandbox) : Prop where
  registered {key : String} {r : Nat} : t.sessions.lookup key = some r →
    s.sessions.lookup key = some r
  before {key : String} {r : Nat} {x : Record} : s.sessions.lookup key = some r →
    s.records[r]? = some x →
    ((∃ a ∈ log, Registry.isIdle a.box x = true) ∧ t.sessions.lookup key = none) ∨
    ((∀ a ∈ log, Registry.isIdle a.box x = false) ∧ Registry.Untouched key r s t)

/-! ### Pools that have come to their end -/

theorem Pool.exists_graded {pool : Pool} (h : ∀ c ∈ pool, ∃ v, c.2 = .finished (.ok v)) :
    ∃ es, pool = graded es := by
  induction pool with
  | nil => exact ⟨[], rfl⟩
  | cons c pool ih =>
      obtain ⟨q, stage⟩ := c
      obtain ⟨v, rfl⟩ := h (q, stage) List.mem_cons_self
      obtain ⟨es, rfl⟩ := ih fun c hc => h c (List.mem_cons_of_mem _ hc)
      exact ⟨(q, v) :: es, rfl⟩

namespace Job

variable {job : Job} {log : List Asking} {pool : Pool} {k : Nat} {q : Request} {stage : Stage}

theorem Runs.finished (h : job.Runs log pool t) (hk : pool[k]? = some (q, stage))
    (hrank : stage.rank = 0) : ∃ a ∈ log, a.case = k ∧ ∃ result,
      Owed a.box.behaviour (job.run k q) (Displaced log k) result ∧
      stage = .finished (.ok (verdict q job.checker result)) ∧
      t.sessions.lookup (job.key k) = none := by
  cases h.course.case trivial hk with
  | waiting => exact absurd hrank nofun
  | named => exact absurd hrank nofun
  | @asked _ a ha hcase hfares =>
      cases hfares with
      | stands _ hstands =>
          cases stage with
          | finished => exact hstands.elim
          | _ => exact absurd hrank nofun
      | stranded => exact absurd hrank nofun
      | settles hsettles =>
          cases stage with
          | finished out =>
              obtain ⟨result, howed, rfl, hnone⟩ := hsettles
              exact ⟨a, ha, hcase, result, howed, rfl, hnone⟩
          | _ => exact absurd hrank nofun

/-- The verdict on a case, by what was met when cases asked for their sessions. -/
def Verdicts (job : Job) (others : Interrupts) (log : List Asking) (k : Nat) (q : Request)
    (v : Verdict) : Prop :=
  ∃ a ∈ log, a.case = k ∧
    (Displaced log k → v = unexecuted q (.unknownSession (job.key k))) ∧
    (¬ Displaced log k → AsAlone q job.checker others (job.key k) a.box v)

theorem Runs.verdict (h : job.Runs log pool t) (hfit : job.Fit) (habsent : others.Absent)
    (hk : pool[k]? = some (q, stage)) (hrank : stage.rank = 0) : ∃ v,
      stage = .finished (.ok v) ∧ t.sessions.lookup (job.key k) = none ∧
      job.Verdicts others log k q v := by
  obtain ⟨a, ha, rfl, result, howed, rfl, hnone⟩ := h.finished hk hrank
  have hasked := h.course.asked a ha
  have hmem := List.mem_of_getElem? (h.line.request hk)
  have hrun : job.run a.case q = q.run (job.key a.case) a.box.setup.batchTimeout := by
    rw [hasked.spends.setup]
    rfl
  have hmet := hfit.met (k := a.case) hasked.spends hmem
  refine ⟨_, rfl, hnone, a, ha, rfl, fun hlost => ?_, fun hkept => ?_⟩
  · obtain ⟨hkept, -⟩ | ⟨-, rfl⟩ := howed
    · exact absurd hlost hkept
    · rfl
  · obtain ⟨-, hgives⟩ | ⟨hlost, -⟩ := howed
    · rw [hrun] at hgives hmet
      exact .of_gives habsent (hfit.checker q hmem) hasked.tidy.sane hasked.untaken
        (hfit.ready.spends hasked.spends).plain hmet hgives
    · exact absurd hlost hkept

/-- Whatever turns the workers take first, the cases get their verdicts, and sessions are spared. -/
theorem Fit.graded (h : job.Fit) (habsent : others.Absent) (turns : List Turn) :
    let order := turns ++ Pool.closing job.requests.length
    let log := Pool.askings Contexts.onSweep job.workers others order (Pool.queued job.requests)
      job.start
    ∃ vs t, (do
        let pool ← Pool.work Contexts.onSweep job.workers order (Pool.queued job.requests)
        Op.ofExcept pool.results) others job.start = (.ok vs, t) ∧
      vs.length = job.requests.length ∧
      (∀ {k : Nat} {q : Request} {v : Verdict}, job.requests[k]? = some q → vs[k]? = some v →
        job.Verdicts others log k q v) ∧
      (∀ {k : Nat}, Displaced log k → 1 < job.workers ∧ 1 < job.requests.length) ∧
      SparesAll log job.start t := by
  intro order log
  obtain ⟨pool₁, t₁, hfirst⟩ := h.runs.reaches h habsent turns
  obtain ⟨pool, t, hclosing, hfinished⟩ :=
    hfirst.runs.reaches_closing h habsent job.requests.length
  have hreaches := hfirst.append hclosing
  have hruns : job.Runs log pool t := hreaches.runs
  have hone {k : Nat} {c : Request × Stage} (hk : pool[k]? = some c) : ∃ v,
      c.2 = .finished (.ok v) ∧ t.sessions.lookup (job.key k) = none ∧
        job.Verdicts others log k c.1 v :=
    hruns.verdict h habsent hk (by rw [← Pool.rankAt_eq hk, hfinished k (hruns.line.lt hk)])
  obtain ⟨es, rfl⟩ : ∃ es, pool = Pool.graded es := Pool.exists_graded fun c hc => by
    obtain ⟨k, hk⟩ := List.getElem?_of_mem hc
    exact (hone hk).imp fun v hv => hv.1
  refine ⟨es.map (·.2), t, (bind_of_eq_ok hreaches.work _).trans ?_, ?_, fun {k q v} hq hv => ?_,
    hruns.course.displaced, fun {key r} hr => ?_, hruns.course.before⟩
  · rw [Pool.results_graded]
    rfl
  · rw [← hruns.line.length, Pool.graded, List.length_map, List.length_map]
  · rw [List.getElem?_map] at hv
    obtain ⟨e, he, rfl⟩ := Option.map_eq_some_iff.mp hv
    have hk : (Pool.graded es)[k]? = some (e.1, .finished (.ok e.2)) := by
      rw [Pool.graded, List.getElem?_map, he]
      rfl
    obtain rfl := Option.some.inj ((hruns.line.request hk).symm.trans hq)
    obtain ⟨v, hv, -, hverdict⟩ := hone hk
    obtain rfl := Except.ok.inj (Stage.finished.inj hv)
    exact hverdict
  · obtain hr | ⟨k, hk, rfl⟩ := hruns.course.registered hr
    · exact hr
    · obtain ⟨v, -, hnone, -⟩ := hone (List.getElem?_eq_getElem (hruns.line.length ▸ hk))
      exact absurd (hr.symm.trans hnone) (Option.some_ne_none _)

end Job

/-! ### Lists of cases -/

/-- What the cases of a list meet when they ask for their sessions. -/
def metBy (others : Interrupts) (turns : List Turn) (rs : List Request) (s : Sandbox) :
    List Asking :=
  Pool.askings Contexts.onSweep (max 1 s.setup.workers) others
    (schedule s.setup.workers turns rs.length) (Pool.queued rs) s

/-- A list of cases is graded unless the time limit of its options is no number of seconds: then the
whole list is refused. Otherwise each case gets a verdict, in order, whichever turns the workers
take. It is the one that the case gets alone, unless the session of the case has been idle when
another case asked for its own, before it began to hold it: then the verdict says that there is no
such session. This takes several workers and several cases. Afterwards no session of a case is left,
and the others are as they were unless they were idle. -/
theorem batch_isolates (options : GradingOptions) (habsent : others.Absent)
    (hchecker : Checker.named (some options.checker) = .ok checker) (source : Source)
    (cases : List TestCase)
    (hs : Ready (cases.map fun c => (caseOf source options none c).run "" s.setup.batchTimeout) s)
    (hclear : 1 < s.setup.workers → 1 < cases.length → s.ClearFor cases.length)
    (turns : List Turn) :
    match limitOf options.timeoutMs with
    | .error e => batch Contexts.onSweep turns source cases options others s = (.error e, s)
    | .ok limit =>
      let log := metBy others turns (cases.map (caseOf source options limit)) s
      ∃ vs t, batch Contexts.onSweep turns source cases options others s = (.ok vs, t) ∧
        vs.length = cases.length ∧
        (∀ {k : Nat} {c : TestCase} {v : Verdict}, cases[k]? = some c → vs[k]? = some v →
          let r := caseOf source options limit c
          let key := keyOf (s.drawnIds + (k + 1))
          ∃ a ∈ log, a.case = k ∧
            (Displaced log k → v = unexecuted r (.unknownSession key)) ∧
            (¬ Displaced log k → AsAlone r checker others key a.box v)) ∧
        (∀ {k : Nat}, Displaced log k → 1 < s.setup.workers ∧ 1 < cases.length) ∧
        SparesAll log s t := by
  cases hlimit : limitOf options.timeoutMs with
  | error e =>
      simp only [batch, hlimit]
      rfl
  | ok limit =>
      dsimp only
      -- How long a case may take has no part in whether something can be made of it.
      have hready : Ready ((cases.map (caseOf source options limit)).map
          (·.run "" s.setup.batchTimeout)) s := hs.retimed (by simp [Request.run, caseOf])
      have hlength : (cases.map (caseOf source options limit)).length = cases.length :=
        List.length_map _
      have hfit : Job.Fit
          ⟨checker, max 1 s.setup.workers, cases.map (caseOf source options limit), s⟩ := {
        ready := hready
        checker := fun r hr => by
          obtain ⟨c, -, rfl⟩ := List.mem_map.mp hr
          exact hchecker
        staffed := Nat.lt_of_lt_of_le Nat.zero_lt_one (Nat.le_max_left _ _)
        clear := fun hworkers hcases => by
          rw [hlength] at hcases ⊢
          exact hclear (by dsimp only at hworkers; omega) hcases }
      obtain ⟨vs, t, hgraded, hvs, hverdicts, hdisplaced, hspared⟩ := hfit.graded habsent
        (if s.setup.workers ≤ 1 || (cases.map (caseOf source options limit)).length ≤ 1 then []
          else turns)
      refine ⟨vs, t, ?_, hvs.trans hlength, fun {k c v} hc hv => ?_, fun {k} hk => ?_, hspared⟩
      · rw [batch_eq, hlimit, hchecker, ← hlength]
        exact hgraded
      · exact hverdicts (by rw [List.getElem?_map, hc]; rfl) hv
      · have h := hdisplaced hk
        rw [hlength] at h
        dsimp only at h
        omega

/-- A sandbox for two workers whose next process is going to lose the connection amid a program, and
the one after that is going to answer. -/
def mixed : Sandbox :=
  { usual with
    setup := { usual.setup with workers := 2 }
    scripts := [{ replies := [{ ended := some (.fault (.transport "gone")) }] }, {}] }

/-- A sandbox for two workers in which sessions may not stay idle at all. -/
def hasty : Sandbox :=
  { usual with setup := { usual.setup with workers := 2, idleTimeout := .ofInt (-1) } }

/-- Milliseconds that are no number of seconds. Nothing but the kernel is to divide them. -/
@[irreducible]
def overlong : Int := .ofNat (2 ^ 255 * 2 ^ 255 * 2 ^ 255 * 2 ^ 255 * 2 ^ 255)

set_option maxRecDepth 10000 in
theorem limitOf_overlong : (limitOf (some overlong)).toOption.isNone = true := by decide +kernel

/-- Two workers take turns. The first of their cases is lost with its interpreter, and the second
one passes; with a time limit that is no number of seconds none of them is graded. Where sessions
may not stay idle, the first case has lost its own when the second one has got its. -/
theorem batch_isolates_overlong :
    let source : Source := { code := "[\"print\", \x7b\"input\": []\x7d]" }
    let cases : List TestCase := [⟨"x\n", some "x"⟩, ⟨"y\n", some "y"⟩]
    let turns : List Turn := (List.replicate 6 [.go 0, .go 1]).flatten
    let rs := cases.map (caseOf source {} none)
    let quiet : Interrupts := fun _ s => s
    (∃ e, batch Contexts.onSweep turns source cases { timeoutMs := some overlong } quiet mixed =
      (.error e, mixed)) ∧
    (∃ vs t, batch Contexts.onSweep turns source cases {} quiet mixed = (.ok vs, t) ∧
      vs.map (·.passed) = [false, true] ∧ SparesAll (metBy quiet turns rs mixed) mixed t) ∧
    ∃ vs t, batch Contexts.onSweep turns source cases {} quiet hasty = (.ok vs, t) ∧
      vs.map (·.passed) = [false, true] ∧ Displaced (metBy quiet turns rs hasty) 0 := by
  intro source cases turns rs quiet
  have hs : Ready (cases.map fun c => (caseOf source {} none c).run "" mixed.setup.batchTimeout)
      mixed := {
    arisen := ⟨mixed, [], [], ⟨rfl, rfl, rfl, rfl, rfl, rfl, rfl, rfl, rfl⟩, .refl⟩
    root := by decide +kernel
    ids := by decide
    free := fun _ _ => ⟨rfl, rfl, rfl⟩
    plain := by
      intro x hx a ha
      simp only [mixed, List.mem_cons, List.not_mem_nil, or_false] at hx
      obtain rfl | rfl := hx <;> exact absurd ha List.not_mem_nil
    reads := by
      intro q hq replies hr
      simp only [mixed, List.map_cons, List.map_nil, List.mem_cons, List.not_mem_nil,
        or_false] at hr
      obtain rfl | rfl | rfl := hr <;> trivial
    judge := nofun }
  have hchecker : Checker.named (some "exact_match") = .ok .exactMatch := rfl
  have habsent : quiet.Absent := fun _ _ => rfl
  have hclear : 1 < mixed.setup.workers → 1 < cases.length → mixed.ClearFor cases.length :=
    fun _ _ _ _ _ hr => absurd hr nofun
  have hlong := batch_isolates { timeoutMs := some overlong } habsent hchecker source cases hs
    hclear turns
  have hshort := batch_isolates {} habsent hchecker source cases hs hclear turns
  refine ⟨?_, ?_, ?_⟩
  · dsimp only at hlong
    cases hlimit : limitOf (some overlong) with
    | ok limit =>
        have hrefused := limitOf_overlong
        rw [hlimit] at hrefused
        exact absurd hrefused nofun
    | error e =>
        rw [hlimit] at hlong
        exact ⟨e, hlong⟩
  · obtain ⟨vs, t, hall, -, -, -, hspared⟩ := hshort
    have hpassed : (batch Contexts.onSweep turns source cases {} quiet mixed).1.toOption.map
        (·.map (·.passed)) = some [false, true] := by decide +kernel
    rw [hall] at hpassed
    exact ⟨vs, t, hall, Option.some.inj hpassed, hspared⟩
  · have hpassed : (batch Contexts.onSweep turns source cases {} quiet hasty).1.toOption.map
        (·.map (·.passed)) = some [false, true] := by decide +kernel
    rcases hall : batch Contexts.onSweep turns source cases {} quiet hasty with ⟨_ | vs, t⟩ <;>
      rw [hall] at hpassed
    · exact absurd hpassed nofun
    · exact ⟨vs, t, rfl, Option.some.inj hpassed, by decide +kernel⟩

end Grading

end Rerun
