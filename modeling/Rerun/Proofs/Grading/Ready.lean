import Rerun.Proofs.Grading.Neighbours
import Rerun.Proofs.Grading.Order
import Rerun.Proofs.Sandbox.Conduct

/-!
States in which cases can be graded (`Grading.Ready`), and what comes of a case that is graded alone
in one of them (`Grading.one_graded`).
-/

namespace Rerun

open Sandbox Op

variable {s t u v : Sandbox} {others : Interrupts}

/-- A state that clients can bring about, from a sandbox before its first command. -/
def Sandbox.Arisen (s : Sandbox) : Prop :=
  ∃ s₀ scopes requests, s₀.Fresh ∧ Steps ⟨s₀, [], []⟩ ⟨s, scopes, requests⟩

theorem Sandbox.Arisen.tidy (h : s.Arisen) : s.Tidy := by
  obtain ⟨s₀, scopes, requests, hfresh, hsteps⟩ := h
  have hmoves := hsteps.moves hfresh.sound.toSane
  exact ⟨hmoves.sane hfresh.sound.toSane, hmoves.apart hfresh.sound.toSane hfresh.apart,
    (hmoves.ordered hfresh.sound.toSane hfresh.ordered).keys⟩

theorem Interrupts.Absent.stepwise (h : others.Absent) : others.Stepwise := by
  intro commands s _
  rw [h]
  exact .refl s

theorem Sandbox.Arisen.stepwise (h : s.Arisen) (habsent : others.Absent) {α : Type} {y : Op α}
    (hy : y.Stepwise) : (y others s).2.Arisen := by
  obtain ⟨s₀, scopes, requests, hfresh, hsteps⟩ := id h
  obtain ⟨requests', hsteps'⟩ := hy habsent.stepwise s h.tidy.sane scopes requests
  exact ⟨s₀, scopes, requests', hfresh, hsteps.trans hsteps'⟩

/-! ### What is used up -/

/-- Cases have gone on in the same surroundings: what was going to happen has happened in part. -/
structure Sandbox.Spends (s t : Sandbox) : Prop where
  setup : t.setup = s.setup
  byInputs : t.byInputs = s.byInputs
  seed : t.appliedSeed = s.appliedSeed
  scripts : t.scripts <:+ s.scripts
  remoteScript : t.remoteScript <:+ s.remoteScript
  remoteClosed : t.remoteClosed = s.remoteClosed

namespace Sandbox.Spends

theorem refl (s : Sandbox) : s.Spends s :=
  ⟨rfl, rfl, rfl, List.suffix_rfl, List.suffix_rfl, rfl⟩

theorem trans (h : s.Spends t) (h' : t.Spends u) : s.Spends u :=
  ⟨h'.setup.trans h.setup, h'.byInputs.trans h.byInputs, h'.seed.trans h.seed,
    h'.scripts.trans h.scripts, h'.remoteScript.trans h.remoteScript,
    h'.remoteClosed.trans h.remoteClosed⟩

theorem of_swept (h : s.Swept t) : s.Spends t := by
  rw [h.tables]
  exact ⟨rfl, rfl, rfl, List.suffix_rfl, List.suffix_rfl, rfl⟩

theorem of_beside {o : s.Own} {key : String} {p : Path} (h : o.Beside key p t)
    (hseed : t.appliedSeed = s.appliedSeed) : s.Spends t :=
  ⟨h.setup, h.byInputs, hseed, h.scripts, h.remoteScript, h.remoteClosed⟩

end Sandbox.Spends

namespace Grading

variable {r : Request} {checker : Checker} {verd : Verdict} {q : Execution.Request}
  {qs : List Execution.Request}

/-- Something can be made of all that the interpreters and the judge are going to do for
requests. -/
structure Able (qs : List Execution.Request) (s : Sandbox) : Prop where
  plain : ∀ x ∈ s.scripts, x.Plain
  reads : ∀ q ∈ qs, ∀ replies ∈ [] :: s.scripts.map (·.replies),
    q.Reads (Process.reaction s.byInputs replies q.values).ended
  judge {c : RemoteClient} : s.setup.remote = some c → (c.shared && s.remoteClosed) = false ∧
    ∀ a ∈ s.remoteScript, RemoteClient.Usable a

theorem Able.spends (h : Able qs s) (hst : s.Spends t) : Able qs t where
  plain x hx := h.plain x (hst.scripts.subset hx)
  reads q hq replies hr := by
    rw [hst.byInputs]
    exact h.reads q hq replies
      (List.cons_subset_cons _ (List.map_subset _ hst.scripts.subset) hr)
  judge hc := by
    rw [hst.setup] at hc
    rw [hst.remoteClosed]
    exact ⟨(h.judge hc).1, fun a ha => (h.judge hc).2 a (hst.remoteScript.subset ha)⟩

/-- Something can be made of each request, whatever the key of its session. -/
theorem Able.met (h : Able qs s) (hq : q ∈ qs) (key : String) :
    Execution.Met s.behaviour { q with key := key } where
  reads {replies} hstart := by
    have hmem : replies ∈ [] :: s.scripts.map (·.replies) := by
      simp only [behaviour] at hstart
      split at hstart
      · rename_i script hup
        obtain rfl := Except.ok.inj hstart
        obtain hscript | rfl := Registry.comesUp_mem hup
        · exact List.mem_cons_of_mem _ (List.mem_map_of_mem hscript)
        · exact List.mem_cons_self
      · cases hstart
    exact h.reads q hq replies hmem
  judge {c maxWait j} hj := by
    simp only [behaviour] at hj
    split at hj
    · cases hj
    · obtain ⟨c', hc, heq⟩ := Option.map_eq_some_iff.mp hj
      obtain ⟨rfl, hrest⟩ := Prod.mk.inj heq
      obtain ⟨-, rfl⟩ := Prod.mk.inj hrest
      exact ⟨(h.judge hc).1, (h.judge hc).2⟩

/-! ### Cases that can be graded -/

/-- States in which cases can be graded, which are executed as the requests of a list. The keys of
the cases are free, and something can be made of all that the interpreters and the judge are going
to do. -/
structure Ready (qs : List Execution.Request) (s : Sandbox) : Prop extends Able qs s where
  arisen : s.Arisen
  root : s.setup.sessionRoot.isMakeable = true
  ids : s.drawnIds + qs.length < 16 ^ 8
  free {n : Nat} : s.drawnIds < n → n ≤ s.drawnIds + qs.length →
    s.sessions.lookup (keyOf n) = none ∧ s.folders.Blank (folderAt s.setup.sessionRoot n)

theorem Ready.retimed {qs' : List Execution.Request} (h : Ready qs s)
    (hsame : qs'.map (fun q => { q with timeout := .ofInt 0 }) =
      qs.map fun q => { q with timeout := .ofInt 0 }) : Ready qs' s := by
  have hlength : qs'.length = qs.length := by simpa using congrArg List.length hsame
  refine { h with
    ids := hlength ▸ h.ids
    free := fun hlt hle => h.free hlt (hlength ▸ hle)
    reads := fun q' hq' replies hr => ?_ }
  have hmem : { q' with timeout := .ofInt 0 } ∈ qs.map fun q => { q with timeout := .ofInt 0 } :=
    hsame ▸ List.mem_map_of_mem hq'
  obtain ⟨q, hq, heq⟩ := List.mem_map.mp hmem
  have hq' : q' = { q with timeout := q'.timeout } := by
    cases q
    cases q'
    simpa using heq.symm
  rw [hq']
  exact h.reads q hq replies hr

theorem Ready.untaken (h : Ready qs s) {n : Nat} (hlt : s.drawnIds < n)
    (hle : n ≤ s.drawnIds + qs.length) : s.Untaken (keyOf n) (folderAt s.setup.sessionRoot n) :=
  ⟨keyOf_ne _ (by decide), folderOf_keyOf _ _, isMakeable_folderAt h.root _, (h.free hlt hle).1,
    (h.free hlt hle).2⟩

/-! ### One case -/

def drawn (s : Sandbox) : Sandbox := { s with drawnIds := s.drawnIds + 1 }

theorem does_drawId (s : Sandbox) : drawId.Does s
    (String.ofList (Text.hexDigits 8 (s.drawnIds + 1) ++ Text.hexDigits 4 0)) (drawn s) :=
  fun _ => rfl

/-- A case gets the verdict on what its execution gives, and its session is taken down. -/
theorem one_of_execute {listener : String → Op Unit} {result : Except Failure Outcome}
    (hchecker : Checker.named r.checker = .ok checker)
    (hexecute : Execution.execute listener (fun _ => pure ())
      (r.run (keyOf (s.drawnIds + 1)) s.setup.batchTimeout) others (drawn s) = (result, u))
    (hreset : Registry.reset (keyOf (s.drawnIds + 1)) others u = (.ok (), t))
    (hends : ∀ e, result = .error e → e.isSandbox = true) :
    one listener r others s = (.ok (verdict r checker result), t) := by
  have hensuring : Op.ensuring (Op.outcome (Execution.execute listener (fun _ => pure ())
      (r.run (keyOf (s.drawnIds + 1)) s.setup.batchTimeout)))
        (Registry.reset (keyOf (s.drawnIds + 1))) others (drawn s) = (.ok result, t) := by
    unfold Op.ensuring Op.outcome
    rw [hexecute]
    dsimp only
    rw [hreset]
  rw [one, hchecker]
  refine ((does_pure checker).step _ others).trans (((does_drawId s).step _ others).trans ?_)
  refine ((does_view _).step _ others).trans ?_
  rw [sessionKey_drawn]
  refine (bind_of_eq_ok hensuring _).trans ?_
  rw [conclusion_eq_ok.mpr ⟨rfl, hends⟩]
  rfl

/-- How a case gets its verdict: it is the one on what its execution gives, and that is decided by
what surrounds it. -/
def Graded (r : Request) (checker : Checker) (others : Interrupts) (s : Sandbox) (v : Verdict) :
    Prop :=
  ∃ result u, Execution.execute Contexts.onSweep (fun _ => pure ())
      (r.run (keyOf (s.drawnIds + 1)) s.setup.batchTimeout) others (drawn s) = (result, u) ∧
    Execution.Gives s.behaviour (r.run (keyOf (s.drawnIds + 1)) s.setup.batchTimeout) result ∧
    v = verdict r checker result

/-- A case that can be graded gets its verdict. -/
theorem one_graded (habsent : others.Absent) (hchecker : Checker.named r.checker = .ok checker)
    (hs : Ready (r.run "" s.setup.batchTimeout :: qs) s) :
    ∃ v t, one Contexts.onSweep r others s = (.ok v, t) ∧ Graded r checker others s v := by
  have hdrawn : (drawn s).Arisen := hs.arisen.stepwise habsent (.of_drifts .drawId)
  have huntaken := hs.untaken (n := s.drawnIds + 1) (by omega)
    (by simp only [List.length_cons]; omega)
  obtain ⟨v, u, result, hsweep, hv, hexecute, hbeside, hgives, hends⟩ :=
    Execution.execute_gives (q := r.run (keyOf (s.drawnIds + 1)) s.setup.batchTimeout)
    hdrawn.tidy.sane
      { huntaken with } hs.plain (hs.met List.mem_cons_self _) rfl habsent
  have hu := hdrawn.stepwise habsent (Execution.stepwise_execute (fun _ => .pure ())
    (r.run (keyOf (s.drawnIds + 1)) s.setup.batchTimeout))
  rw [hexecute] at hu
  obtain ⟨t, hreset, -⟩ := Registry.does_reset hu.tidy.sane (keyOf (s.drawnIds + 1))
  exact ⟨_, t, one_of_execute hchecker hexecute (hreset others) hends, result, u, hexecute, hgives,
    rfl⟩

end Grading

end Rerun
