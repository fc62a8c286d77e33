import Rerun.Proofs.Sandbox.Privacy
import Rerun.Proofs.Session.Submission

/-!
A run that is given its values one after the other, while nobody else acts. Each submission that
continues it attempts the same program, with the same seed and on all values so far, and the run
stands where that attempt has left it (`Contexts.Stands`).
-/

namespace Rerun

open Sandbox Op

/-- How an attempt at a program ends that begins with a seed, and the machine that it leaves. -/
def Source.attempted (source : Source) (seed : Int) (values : List String) :
    Serving.Ending Unit × Program.Machine :=
  Serving.attempt (some seed) { code := source.text, inputs := values, seed := some seed }

namespace Outcome

structure Kept (o : Outcome) : Prop where
  inTime : o.status ≠ .timeout
  intact (reason : String) : o.error ≠ some ("Interpreter crashed: " ++ reason)

/-- An outcome that tells of a program what it has shown, and whether it waits for a value. -/
structure Tells (o : Outcome) (ended : Serving.Ending Unit × Program.Machine) : Prop where
  stdout : o.stdout = Program.transcript ended.2.shown
  awaits : o.awaitsInput = true ↔ ∃ p, ended.1 = .suspended p

theorem kept_echoing {o : Outcome} (echo : Option Json) : (o.echoing echo).Kept ↔ o.Kept := by
  cases echo with
  | none => exact Iff.rfl
  | some j => exact ⟨fun h => ⟨h.inTime, h.intact⟩, fun h => ⟨h.inTime, h.intact⟩⟩

theorem Tells.echoing {o : Outcome} {ended : Serving.Ending Unit × Program.Machine}
    (h : o.Tells ended) (echo : Option Json) : (o.echoing echo).Tells ended := by
  cases echo with
  | none => exact h
  | some j => exact ⟨h.stdout, h.awaits⟩

end Outcome

namespace Execution.Request

theorem not_kept_refused (r : Request) (ms : Int) : ¬ (r.refused ms).Kept :=
  fun h => h.intact _ rfl

/-- As long as the interpreter is not lost, an outcome tells of its program. -/
theorem tells_outcomeAt {r : Request} {ending : Serving.Ending Unit} {m : Program.Machine}
    {ms : Int}
    (h : (r.outcomeAt ending m ms).Kept) : (r.outcomeAt ending m ms).Tells (ending, m) := by
  cases ending with
  | finished _ => exact ⟨rfl, nofun, nofun⟩
  | suspended prompt => exact ⟨rfl, fun _ => ⟨prompt, rfl⟩, fun _ => rfl⟩
  | failed e => exact ⟨rfl, nofun, nofun⟩
  | malformed line => exact ⟨rfl, nofun, nofun⟩
  | unreported => exact absurd h (not_kept_refused r ms)
  | hung => exact absurd rfl h.inTime
  | crashed => exact absurd rfl (h.intact _)

end Execution.Request

namespace Contexts

variable {s t u : Sandbox} {others others' others₀ : Interrupts} {c : String} {i r₀ : Nat}
  {source : Source} {values : List String} {timeout : Binary64} {x : RunInfo} {n : Int}
  {o : Outcome}

/-! ### Nobody else has a part in it -/

theorem Taken.attempt_private (h : Taken c source values timeout s t i x) (hs : s.Sane)
    (hquiet : others.Quiet) (hquiet' : others'.Quiet) (hanswers : s.Answering)
    (hstart : Registry.start (runKey c) others₀ s = (.ok r₀, u)) (echo : Option Json) :
    Run.attempt onSweep i echo others t = Run.attempt onSweep i echo others' t := by
  obtain ⟨n, t₁, hposed⟩ := h.posed
  obtain ⟨r', t', hstart₁⟩ := hposed.alike.starts hs hposed.sane hstart
  have hkey : (x.request i n).key = runKey c := h.key
  have hfree := hposed.free
  rw [← hkey] at hstart₁ hfree
  have hne : (x.request i n).key ≠ "" := by
    rw [hkey]
    exact runKey_ne_empty c
  rw [Run.attempt_of_prepare hposed.prepared, Run.attempt_of_prepare hposed.prepared]
  refine Along.bind_congr (R := fun _ _ => True) (fun o => ?_)
    (Execution.execute_private hquiet hquiet' hposed.sane (hposed.alike.answering hanswers)
      (fun _ => .change fun _ => trivial) hne hfree hstart₁)
  exact .bind (.change fun _ => trivial) fun _ => .pure _

/-- Nobody else has a part in a submission whose interpreter answers itself. -/
theorem submit_private (hs : s.Sound) (hidle : Idle c s)
    (htimeout : secondsOf s.setup.runTimeoutMs = .ok timeout) (hquiet : others.Quiet)
    (hquiet' : others'.Quiet) (hanswers : s.Answering)
    (hstart : Registry.start (runKey c) others₀ s = (.ok r₀, u)) (source : Source)
    (prior : List Json) (newest : Option Json) :
    submit c source prior newest others s = submit c source prior newest others' s := by
  obtain ⟨t, i, x, htaken, hrest⟩ := submit_taken hs hidle htimeout source prior newest
  have hattempt :=
    htaken.attempt_private hs.toSane hquiet hquiet' hanswers hstart newest
  rcases hres : Run.attempt onSweep i newest others t with ⟨res, w⟩
  exact ((hrest others).2 _ _ hres).trans ((hrest others').2 _ _ (hattempt ▸ hres)).symm

/-! ### Where a run stands -/

/-- The run of a context stands where its last attempt has left it: that one was made with all its
values and with its seed. Interpreters are reached over the network, so that even without a folder
there is an outcome. -/
structure Stands (c : String) (source : Source) (values : List String) (n : Int) (o : Outcome)
    (s : Sandbox) : Prop where
  sound : s.Sound
  distinct : s.DistinctRuns
  run : ∃ i x, s.contexts.lookup c = some i ∧ s.runs[i]? = some x ∧ x.source = source ∧
    x.queue.values = values ∧ x.last = some o ∧ x.inFlight = false ∧
    s.engineSeeds.lookup x.runId = some n
  networked : s.setup.networked = true
  tells : o.Kept → o.Tells (source.attempted n values)

theorem Stands.idle (h : Stands c source values n o s) : Idle c s := by
  obtain ⟨i, x, hc, hx, -, -, -, hidle, -⟩ := h.run
  intro j y hj hy
  obtain rfl := Option.some.inj (hc.symm.trans hj)
  obtain rfl := Option.some.inj (hx.symm.trans hy)
  exact hidle

/-- While nobody acts, nothing of the runs changes in an execution but what is counted. -/
theorem absent_sameIds {t w : Sandbox} (ht : t.Sane) {q : Execution.Request}
    {out : Except Failure Outcome}
    (hexecute : Execution.execute onSweep (Run.markConsumed i) q (orderly 0) t = (out, w)) :
    t.SameIds w := by
  have hconsumed (m : Int) : (Run.markConsumed i m).Frames SameIds := fun _ _ s =>
    .modifyRun s i (fun r => { r with queue := r.queue.markConsumed m }) fun _ => rfl
  have hsame : t.SameIds
      (Execution.execute onSweep (Run.markConsumed i) q (orderly 0) t).2 :=
    Execution.relates_execute isFrame_sameIds ht (fun _ s => isFrame_sameIds.same (.refl s))
      (fun u hswept => by rw [SameIds, hswept.runs]) hconsumed q
  rw [hexecute] at hsame
  exact hsame

theorem Taken.stands (h : Taken c source values timeout s t i x) (hs : s.Sane)
    (hanswers : s.Answering) (hd : t.DistinctRuns)
    (hstart : Registry.start (runKey c) others₀ s = (.ok r₀, u))
    (hnetworked : s.setup.networked = true) (echo : Option Json) :
    ∃ n o w, Run.attempt onSweep i echo (orderly 0) t = (.ok o, w) ∧
      (∀ m, t.engineSeeds.lookup x.runId = some m → n = m) ∧
      ((Run.landed w i).Sound → (Run.landed w i).setup = s.setup →
        Stands c source values n o (Run.landed w i)) := by
  obtain ⟨v, p, n, ms, t₁, w, -, -, hposed, hexecute, hseed⟩ :=
    h.execute_eq hs (fun _ => rfl : (orderly 0).Quiet) hanswers hd hstart
  obtain ⟨o, ho⟩ : ∃ o, o = if v.folders.has p then (x.request i n).comesTo ms
    else (x.request i n).refused ms := ⟨_, rfl⟩
  rw [(x.request i n).resultIn_eq_ok _ _ (.inr hnetworked), ← Execution.Request.comesTo, ← ho]
    at hexecute
  have hd₁ := hposed.ids.distinctRuns hd
  have hspare : (orderly 0).Spare i := fun _ s => (isFrame_steady i).same (.refl s)
  have hsteady := Execution.steady_execute hposed.sane hd₁ hspare (Run.frames_markConsumed i)
    (x.request i n)
  rw [hexecute] at hsteady
  obtain ⟨⟨y, hy, hsame⟩, -, hplace⟩ := hsteady hposed.run h.inFlight
  have hended : (x.request i n).ended = source.attempted n values := by
    rw [Execution.Request.ended, Execution.Request.asked, RunInfo.request, h.source, h.values]
    rfl
  refine ⟨n, o.echoing echo, _, Run.attempt_eq hposed.prepared hexecute echo, fun m hm => ?_,
    fun hsound hsetup => ⟨hsound, ?_,
      ⟨i, { y with inFlight := false, last := some (o.echoing echo) },
      hplace (hposed.contexts ▸ h.place), ?_, hsame.source.trans h.source,
      hsame.values.trans h.values, rfl, rfl, ?_⟩, hsetup ▸ hnetworked, fun hkept => ?_⟩⟩
  · -- A run that has a seed keeps it.
    have hkept : t₁ = Run.rewound t i := hposed.drawn.kept hm
    have hfound := hposed.drawn.found
    rw [hkept] at hfound
    exact Option.some.inj (hfound.symm.trans hm)
  · refine (Run.sameIds_landed _ i).distinctRuns (SameIds.distinctRuns (.modifyRun w i
      (fun r => { r with last := some (o.echoing echo) }) fun _ => rfl) ?_)
    exact (absent_sameIds hposed.sane hexecute).distinctRuns hd₁
  · exact Table.getElem?_modify_eq_some.mpr ⟨_, Table.getElem?_modify_eq_some.mpr ⟨y, hy, rfl⟩, by
      rw [if_pos rfl, if_pos rfl]⟩
  · show w.engineSeeds.lookup y.runId = some n
    rw [hsame.runId]
    exact hseed
  · rw [Outcome.kept_echoing] at hkept
    subst ho
    split at hkept
    · rw [if_pos ‹_›, ← hended]
      exact (Execution.Request.tells_outcomeAt hkept).echoing echo
    · exact absurd hkept (Execution.Request.not_kept_refused _ _)

/-- The first submission for a context leaves its run where the attempt without a value does. -/
theorem stands_new (hs : s.Sound) (hidle : Idle c s)
    (htimeout : secondsOf s.setup.runTimeoutMs = .ok timeout) (hids : s.drawnIds + 1 < 16 ^ 8)
    (hquiet : others.Quiet) (hanswers : s.Answering)
    (hstart : Registry.start (runKey c) others₀ s = (.ok r₀, u))
    (hnetworked : s.setup.networked = true) (source : Source) :
    ∃ n o w, submit c source [] none others s = (.ok o, w) ∧ Stands c source [] n o w := by
  obtain ⟨t, i, x, htaken, hrest⟩ := submit_taken hs hidle htimeout source [] none
  obtain ⟨n, o, w, hattempt, -, hstands⟩ := htaken.stands hs.toSane hanswers
    (htaken.sane.distinctRuns (Nat.lt_of_le_of_lt htaken.ids hids)) hstart hnetworked none
  have hsubmit := (hrest (orderly 0)).2 _ _ hattempt
  obtain ⟨-, hsound, hmeanwhile⟩ := keeps_submit c source [] none s hs (orderly 0) (orderly 0)
    (orderly_orderly 0).tame fun _ _ _ => rfl
  rw [hsubmit] at hsound hmeanwhile
  have hprivate := submit_private hs hidle htimeout hquiet (fun _ => rfl : (orderly 0).Quiet)
    hanswers hstart source [] none
  exact ⟨n, o, _, hprivate.trans hsubmit, hstands hsound hmeanwhile.setup⟩

/-- A submission that continues a run leaves it where the attempt with one more value does. -/
theorem Stands.answered (h : Stands c source values n o s) (hawaits : o.awaitsInput = true)
    (hquiet : others.Quiet) (hanswers : s.Answering)
    (hstart : Registry.start (runKey c) others₀ s = (.ok r₀, u)) (v : String) :
    ∃ o' w, submit c source (values.map .str) (some (.str v)) others s = (.ok o', w) ∧
      Stands c source (values ++ [v]) n o' w := by
  obtain ⟨i, x, hc, hx, hsource, hvalues, hlast, hidle, hseed⟩ := h.run
  obtain ⟨x', hx', -, -, htimeout⟩ := h.sound.context hc
  obtain rfl := Option.some.inj (hx.symm.trans hx')
  have hprior : (values.map Json.str).map Execution.asText = values := by
    rw [List.map_map]
    exact List.map_id values
  have hcont : continues x source ((values.map Json.str).map Execution.asText) = true := by
    simp [continues, hsource, RunInfo.awaitsInput, hlast, hawaits, hprior, hvalues]
  obtain ⟨t, htaken, hids, hseeds, hrest⟩ :=
    submit_resumed h.sound h.idle htimeout hc hx hcont (.str v)
  obtain ⟨m, o', w, hattempt, hsame, hstands⟩ := htaken.stands h.sound.toSane hanswers
    (hids.distinctRuns h.distinct) hstart h.networked (some (.str v))
  obtain rfl : m = n := hsame n (hseeds ▸ hseed)
  have hsubmit := (hrest (orderly 0)).2 _ _ hattempt
  obtain ⟨-, hsound, hmeanwhile⟩ := keeps_submit c source (values.map .str) (some (.str v)) s
    h.sound (orderly 0) (orderly 0) (orderly_orderly 0).tame fun _ _ _ => rfl
  rw [hsubmit] at hsound hmeanwhile
  rw [hprior] at hstands
  have hprivate := submit_private h.sound h.idle htimeout hquiet (fun _ => rfl : (orderly 0).Quiet)
    hanswers hstart source (values.map .str) (some (.str v))
  exact ⟨o', _, hprivate.trans hsubmit, hstands hsound hmeanwhile.setup⟩

end Contexts

end Rerun
