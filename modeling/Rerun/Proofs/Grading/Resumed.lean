import Rerun.Proofs.Grading.Ready
import Rerun.Proofs.Program.Unattended
import Rerun.Proofs.Remote.Input
import Rerun.Proofs.Session.Submission

/-!
A run that was given its values one after the other, beside a case that is graded on all of them.
The mode of an attempt matters only when its values run out (`mode_matters_when_dry`): a grading
shows what was shown to the one who typed the values.
-/

namespace Rerun

open Sandbox Op

/-! ### Values as lines -/

theorem Feed.linesOf_eq_joinLines (values : List String) :
    linesOf values = Text.joinLines (values ++ [""]) := by
  rw [← String.toList_inj, Text.toList_joinLines, linesOf]
  induction values with
  | nil => rfl
  | cons v rest ih =>
      have hrest : (rest ++ [""]).map String.toList ≠ [] := by simp
      obtain ⟨w, ws, hws⟩ := List.exists_cons_of_ne_nil hrest
      show _ = List.intercalate _ (v.toList :: (rest ++ [""]).map String.toList)
      rw [hws, List.intercalate_cons_cons, ← hws, ← ih]
      simp

theorem splitStdin_linesOf {values : List String} (h : ∀ v ∈ values, '\n' ∉ v.toList) :
    splitStdin (Feed.linesOf values) = values := by
  have hblank : ∀ v ∈ values ++ [""], '\n' ∉ v.toList := by
    intro v hv
    obtain hv | hv := List.mem_append.mp hv
    · exact h v hv
    · rw [List.mem_singleton.mp hv]
      exact List.not_mem_nil
  rw [Feed.linesOf_eq_joinLines, splitStdin_joinLines hblank, List.getLast?_concat, if_pos rfl,
    List.dropLast_concat]

/-! ### Outcomes -/

namespace Execution.Request

/-- What an outcome shows of a program, and how it says that the program ended, depends on neither
the session nor the time limit. -/
theorem shows_outcomeAt (r r' : Request) {m m' : Program.Machine} (hshown : m'.shown = m.shown)
    (ending : Serving.Ending Unit) (ms ms' : Int) :
    (r'.outcomeAt ending m' ms').stdout = (r.outcomeAt ending m ms).stdout ∧
      (r'.outcomeAt ending m' ms').status = (r.outcomeAt ending m ms).status := by
  cases ending <;>
    simp [outcomeAt, raised, refused, remains, lostOutcome, Failure.kind, Failure.partialOutput,
      hshown]

end Execution.Request

/-! ### Requests -/

/-- An attempt for which no read finds its values used up is the same when nobody can give further
ones: what is answered is the same, what is written down, and everything else. -/
theorem Process.serveRun_unattended {r : Serving.RunRequest} {s : Sandbox}
    (h : (Serving.attempt (r.seed.or s.appliedSeed) r).2.demands = []) (i : Nat)
    (others : Interrupts) :
    serveRun i { r with mode := "batch" } others s = serveRun i r others s := by
  by_cases hmode : r.mode = "batch"
  · rw [← hmode]
  have hattempt := (Serving.attempt_unattended hmode _).1 h
  cases hc : s.children[i]? with
  | none =>
      have hchild : child i others s = (.error (.other "KeyError"), s) := by
        simp only [child, need, hc]
      simp [serveRun, bind_apply, hchild]
  | some y =>
      have hchild : (child i).Does s y s := does_need hc
      have happly : (applySeed r.seed).Does s (r.seed.or s.appliedSeed)
          { s with appliedSeed := r.seed.or s.appliedSeed } := fun _ => rfl
      rw [serveRun, serveRun, hchild.step, hchild.step, (does_view _).step, (does_view _).step]
      split
      · rfl
      · rw [happly.step, happly.step, hattempt]
        rfl

namespace Grading

variable {s s' t : Sandbox} {others : Interrupts} {r : Request} {checker : Checker} {v : Verdict}

/-- The verdict on a case for which an interpreter comes up that answers itself: it tells how the
program ends. -/
theorem Graded.answered (h : Graded r checker others s v) {q : Execution.Request}
    (hq : r.run (keyOf (s.drawnIds + 1)) s.setup.batchTimeout = q) {replies : List Scripted}
    (hstart : s.behaviour.start = .ok replies)
    (hanswers : (Process.reaction s.byInputs replies q.values).ended = none)
    (hends : ∀ p, (q.endedAt s.appliedSeed).1 ≠ .suspended p) :
    ∃ ms, v = verdict r checker (.ok
      (q.outcomeAt (q.endedAt s.appliedSeed).1 (q.endedAt s.appliedSeed).2 ms)) := by
  obtain ⟨result, -, -, hgives, rfl⟩ := h
  rw [hq] at hgives
  cases hgives with
  | @ran replies' o ms hstart' hcomes =>
      obtain rfl := Except.ok.inj (hstart.symm.trans hstart')
      have hcomes : Execution.Request.Comes { q with key := q.key } o
          (q.saidAt (q.endedAt s.appliedSeed).1 (q.endedAt s.appliedSeed).2) := by
        have hsays : q.saysTo s.behaviour.seed (Process.reaction s.behaviour.byInputs replies
            q.values) = q.saidAt (q.endedAt s.appliedSeed).1 (q.endedAt s.appliedSeed).2 := by
          show q.saysTo s.appliedSeed (Process.reaction s.byInputs replies q.values) = _
          rw [Execution.Request.saysTo, hanswers]
        exact hsays ▸ hcomes
      have hsaid := Execution.Request.comes_saidAt (r := q) (fun p hp => absurd hp (hends p))
        (q.endedAt s.appliedSeed).2
      obtain rfl := hsaid.unique hcomes
      exact ⟨ms, rfl⟩
  | fell hstart' => cases hstart.symm.trans hstart'
  | judged hstart' => cases hstart.symm.trans hstart'

/-- A case with a program that does not look at its seed, on values of which an attempt with
somebody at hand has not run out: it shows what the attempt has shown, and ends in the same way. -/
theorem one_replays (habsent : others.Absent) (hchecker : Checker.named r.checker = .ok checker)
    (hs : Ready [r.run "" s.setup.batchTimeout] s) {replies : List Scripted}
    (hstart : s.behaviour.start = .ok replies) {values : List String}
    (hanswers : (Process.reaction s.byInputs replies values).ended = none)
    (hinput : splitStdin r.input = values) (hecho : r.echo = true)
    (hseedless : Program.uses .seek r.unit.text = false) {seed : Option Int}
    {ending : Serving.Ending Unit} {m : Program.Machine}
    (hattempt : Serving.attempt seed { code := r.unit.text, inputs := values } = (ending, m))
    (hdry : m.demands = []) :
    ∃ v t, one Contexts.onSweep r others s = (.ok v, t) ∧ ∀ (q : Execution.Request) (ms : Int),
      v.actual = (q.outcomeAt ending m ms).stdout ∧
      v.status = (q.outcomeAt ending m ms).status := by
  obtain ⟨v, t, hone, hgraded⟩ := one_graded habsent hchecker hs
  have hseeded : Serving.attempt s.appliedSeed { code := r.unit.text, inputs := values } =
      (ending, { m with seed := s.appliedSeed }) := by
    rw [Serving.attempt_reseeded (r := { code := r.unit.text, inputs := values }) hseedless seed,
      hattempt]
  have hended : (r.run (keyOf (s.drawnIds + 1)) s.setup.batchTimeout).endedAt s.appliedSeed =
      (ending, Program.Machine.coupled .unattended { m with seed := s.appliedSeed }) := by
    have hasked : (r.run (keyOf (s.drawnIds + 1)) s.setup.batchTimeout).asked =
        { code := r.unit.text, inputs := values, mode := "batch" } := by
      simp only [Execution.Request.asked, Request.run, hinput, hecho]
      rfl
    have hsame := (Serving.attempt_unattended (r := { code := r.unit.text, inputs := values })
      (show "interactive" ≠ "batch" by decide) s.appliedSeed).1 (by rw [hseeded]; exact hdry)
    rw [hseeded] at hsame
    rw [Execution.Request.endedAt, hasked]
    exact hsame
  have hends (p : String) : ending ≠ .suspended p := by
    rintro rfl
    have hwaits := Serving.demands_ne_nil (congrArg Prod.fst hattempt)
    rw [hattempt] at hwaits
    exact hwaits hdry
  obtain ⟨ms, rfl⟩ := hgraded.answered rfl hstart
    (show (Process.reaction s.byInputs replies (splitStdin r.input)).ended = none by rwa [hinput])
    (by rw [hended]; exact hends)
  refine ⟨_, t, hone, fun q ms' => ?_⟩
  rw [hended]
  exact Execution.Request.shows_outcomeAt q _ rfl ending ms' ms

end Grading

namespace Contexts

open Grading

/-- The mode of an attempt matters only when its values run out.

An attempt for which no read finds its values used up is the same when nobody can give further ones:
what is answered, what is written down, and everything else. If nothing in the program goes on after
the request of a read, and an attempt waits for a value, then the attempt that nobody can answer
shows what the other has shown, and more.

So the last submission of a run, for a program that does not look at its seed, shows what a grading
shows for which the values are the lines of the input, and ends in the same way, when no read of its
attempt has found the values used up. Only without the folder of its session is there no attempt,
and only in a program that serves its interpreters itself does the submission then have no
outcome. -/
theorem mode_matters_when_dry :
    (∀ {r : Serving.RunRequest} {s : Sandbox},
      (Serving.attempt (r.seed.or s.appliedSeed) r).2.demands = [] → ∀ i others,
      Process.serveRun i { r with mode := "batch" } others s = Process.serveRun i r others s) ∧
    (∀ {r : Serving.RunRequest}, Program.uses .rescue r.code = false → ∀ seed,
      Serving.statusName (Serving.attempt seed r).1 = "awaiting_input" → ∃ rest more,
      Program.transcript (Serving.attempt seed { r with mode := "batch" }).2.shown =
        Program.transcript (Serving.attempt seed r).2.shown ++ rest ∧
      (Serving.attempt seed { r with mode := "batch" }).2.errors =
        (Serving.attempt seed r).2.errors ++ more) ∧
    ∀ {s : Sandbox} {others : Interrupts} {c : String} {timeout : Binary64} {source : Source}
      {prior : List Json} {newest : Option Json} {values : List String},
      s.Serves (runKey c) others → Idle c s → s.drawnIds + 1 < 16 ^ 8 →
      secondsOf s.setup.runTimeoutMs = .ok timeout →
      (prior ++ newest.toList).map Execution.asText = values → (∀ v ∈ values, '\n' ∉ v.toList) →
      Program.uses .seek source.text = false →
      ∃ t p id seed, opening c source prior newest others s = (.ok (), t) ∧
        Registry.folderOf s.setup (runKey c) = .ok p ∧
        (t.folders.has p = true ∨ s.setup.networked = true →
          ∃ o u, submit c source prior newest others s = (.ok o, u) ∧
            o.runId = some id ∧ u.engineSeeds.lookup id = some seed ∧
            (t.folders.has p = true →
              (Serving.attempt (some seed)
                { code := source.text, inputs := values }).2.demands = [] →
              ∀ {s' : Sandbox} {others' : Interrupts} {r : Grading.Request} {checker : Checker}
                {replies : List Scripted}, others'.Absent → s'.behaviour.start = .ok replies →
                (Process.reaction s'.byInputs replies values).ended = none →
                Ready [r.run "" s'.setup.batchTimeout] s' → Checker.named r.checker = .ok checker →
                r.unit = source → r.input = Feed.linesOf values → r.echo = true →
                ∃ v t', one onSweep r others' s' = (.ok v, t') ∧
                  v.actual = o.stdout ∧ v.status = o.status)) := by
  refine ⟨fun h i others => Process.serveRun_unattended h i others,
    fun {r} hrescue seed hwaits => ?_,
    fun {s others c timeout source prior newest values} hs hidle hids htimeout hvalues hlines
      hseedless => ?_⟩
  · by_cases hmode : r.mode = "batch"
    · exact ⟨"", "", by simp [← hmode], by simp [← hmode]⟩
    obtain ⟨p, hp⟩ := Serving.eq_suspended_of_statusName hwaits
    obtain ⟨⟨rest, hrest⟩, more, hmore⟩ :=
      (Serving.attempt_unattended hmode seed).2 (Serving.demands_attempt hrescue seed) p hp
    exact ⟨Program.transcript rest, more, by rw [← hrest, Program.transcript_append], hmore⟩
  · obtain ⟨t, i, x, htaken, hrest⟩ :=
      submit_taken hs.reachable.sound hidle htimeout source prior newest
    obtain ⟨hopening, hsubmit⟩ := hrest others
    obtain ⟨others', r, t₀, hstart⟩ := hs.starts
    obtain ⟨v, p, n, ms, u, happroach, hp, hattempt, hseed⟩ :=
      htaken.attempt_eq hs.reachable.sound.toSane hs.quiet hs.answers hids hstart newest
    refine ⟨v, p, x.runId, n, hopening.trans happroach, hp, fun hin => ?_⟩
    rw [(x.request i n).resultIn_eq_ok _ _ hin] at hattempt
    refine ⟨_, _, hsubmit _ _ hattempt, ?_, hseed,
      fun hhas hdry {s' others'' r' checker replies} habsent hup hanswers hready hchecker hunit
        hinput hecho => ?_⟩
    · rw [Outcome.runId_echoing]
      split
      · exact Execution.Request.runId_outcomeAt _ _ _ _
      · rfl
    · rw [if_pos hhas]
      rcases hended : Serving.attempt (some n) { code := source.text, inputs := values } with
        ⟨ending, m⟩
      rw [hended] at hdry
      subst hunit
      obtain ⟨v', t', hone, hshows⟩ := one_replays habsent hchecker hready hup hanswers
        (hinput ▸ splitStdin_linesOf hlines) hecho hseedless hended hdry
      obtain ⟨hstdout, hstatus⟩ := hshows (x.request i n) ms
      have hcomes : (x.request i n).comesTo ms = (x.request i n).outcomeAt ending m ms := by
        have hasked : (x.request i n).ended = (ending, m) := by
          rw [← hended]
          simp only [Execution.Request.ended, Execution.Request.asked, RunInfo.request,
            htaken.source, htaken.values, hvalues]
          rfl
        rw [Execution.Request.comesTo, hasked]
      rw [← Execution.Request.comesTo, hcomes]
      refine ⟨v', t', hone, hstdout.trans ?_, hstatus.trans ?_⟩ <;> cases newest <;> rfl

/-- A context waits for a value. -/
def attended : Sandbox := orderly 1 [.submit "a" reading [] none] usual

/-- The program of a context is given its value, and a case with that value is graded. -/
theorem mode_matters_when_dry_reading :
    let asked : Serving.RunRequest := { code := reading.text }
    let answered : Serving.RunRequest := { code := reading.text, inputs := ["x"] }
    let quiet : Interrupts := fun _ s => s
    Process.serveRun 0 { answered with mode := "batch" } quiet usual =
      Process.serveRun 0 answered quiet usual ∧
    (∃ rest more, Program.transcript (Serving.attempt none { asked with mode := "batch" }).2.shown =
        Program.transcript (Serving.attempt none asked).2.shown ++ rest ∧
      (Serving.attempt none { asked with mode := "batch" }).2.errors =
        (Serving.attempt none asked).2.errors ++ more) ∧
    ∃ o u v t', submit "a" reading [] (some (.str "x")) (orderly 1) attended = (.ok o, u) ∧
      one onSweep { unit := reading, input := "x\n", echo := true } quiet usual = (.ok v, t') ∧
      v.actual = o.stdout ∧ v.status = o.status := by
  intro asked answered quiet
  obtain ⟨hmode, hprefix, hreplays⟩ := mode_matters_when_dry
  refine ⟨hmode (by decide +kernel) 0 quiet,
    hprefix (by decide +kernel) none (by decide +kernel), ?_⟩
  -- One evaluation for all that is to be known of the state.
  obtain ⟨hby, hempty, hstart, hcontext, hflight, htime, hids, hhas⟩ :
      attended.byInputs.isNone = true ∧ attended.upcoming.all (·.isEmpty) = true ∧
      (Registry.start (runKey "a") (orderly 1) attended).1.toOption.isSome = true ∧
      attended.contexts.lookup "a" = some 0 ∧ attended.runs[0]?.all (!·.inFlight) = true ∧
      (secondsOf attended.setup.runTimeoutMs).toOption.isSome = true ∧
      attended.drawnIds + 1 < 16 ^ 8 ∧
      (opening "a" reading [] (some (.str "x")) (orderly 1) attended).2.folders.has
        ((Registry.folderOf attended.setup (runKey "a")).toOption.getD .work) = true := by
    decide +kernel
  have hserves : attended.Serves (runKey "a") (orderly 1) :=
    serves_of_ordinary ((Reachable.fresh fresh_usual).orderly 1 _) hby hempty hstart
  have hidle : Idle "a" attended := by
    intro i x hc hx
    obtain rfl := Option.some.inj (hcontext.symm.trans hc)
    rw [hx] at hflight
    simpa using hflight
  obtain ⟨timeout, htimeout⟩ := eq_ok_of_isSome htime
  have hseedless : Program.uses .seek reading.text = false := by decide +kernel
  have hvalues : ([] ++ (some (Json.str "x")).toList).map Execution.asText = ["x"] := rfl
  obtain ⟨t, p, id, seed, hopening, hp, hsubmits⟩ :=
    hreplays hserves hidle hids htimeout hvalues (by decide) hseedless
  rw [hopening, hp] at hhas
  obtain ⟨o, u, hsubmit, -, -, hgraded⟩ := hsubmits (.inl hhas)
  have hdry : (Serving.attempt (some seed)
      { code := reading.text, inputs := ["x"] }).2.demands = [] :=
    (Serving.demands_attempt_reseeded (r := { code := reading.text, inputs := ["x"] }) hseedless
      none (some seed)).trans (by decide +kernel)
  have hready : Ready [({ unit := reading, input := "x\n", echo := true } :
      Grading.Request).run "" usual.setup.batchTimeout] usual := {
    arisen := ⟨usual, [], [], fresh_usual, .refl⟩
    root := by decide +kernel
    ids := by decide
    free := fun _ _ => ⟨rfl, rfl, rfl⟩
    plain := nofun
    reads := by
      intro q hq replies hr
      obtain rfl := List.mem_singleton.mp hr
      exact trivial
    judge := nofun }
  have hup : usual.behaviour.start.toOption.any (·.isEmpty) = true := by decide +kernel
  obtain ⟨replies, hreplies⟩ : ∃ replies, usual.behaviour.start = .ok replies :=
    eq_ok_of_isSome (Option.isSome_of_any hup)
  rw [hreplies] at hup
  obtain rfl : replies = [] := List.isEmpty_iff.mp hup
  have hanswers : (Process.reaction usual.byInputs [] ["x"]).ended = none := rfl
  have hchecker : Checker.named (some "exact_match") = .ok .exactMatch := rfl
  have hquiet : quiet.Absent := fun _ _ => rfl
  obtain ⟨v, t', hone, hshows⟩ := hgraded hhas hdry hquiet hreplies hanswers hready hchecker rfl
    rfl rfl
  exact ⟨o, u, v, t', hsubmit, hone, hshows⟩

end Contexts

end Rerun
