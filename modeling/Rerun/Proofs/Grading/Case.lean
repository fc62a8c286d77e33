import Rerun.Proofs.Grading.Beside
import Rerun.Proofs.Remote.Judgement
import Rerun.Proofs.Sandbox.Reactions
import Rerun.Proofs.Sandbox.Recalls
import Rerun.Proofs.Session.Occupancy
import Rerun.Proofs.Session.Routes

/-!
The grading of one case, on a session of its own. What is found depends on the case, on the
interpreter that comes up for it and, when none comes up, on the judge (`Sandbox.behaviour`), and on
nothing else.
-/

namespace Rerun

open Sandbox Op

/-! ### Sweeps -/

/-- Folders that were blank are blank. -/
def Sandbox.KeepsBlank (s t : Sandbox) : Prop := ∀ q, s.folders.Blank q → t.folders.Blank q

instance : IsPreorder Sandbox Sandbox.KeepsBlank where
  refl _ _ := id
  trans _ _ _ h h' q hq := h' q (h q hq)

theorem Op.Along.keepBlank_revise (p : Path) {f : Folder → Folder}
    (hf : ∀ g, (f g).shown = g.shown ∧ (f g).processLog = g.processLog) :
    (Op.change fun s => { s with folders := s.folders.revise p f }).Along Sandbox.KeepsBlank :=
  .change fun _ _ h => ⟨h.1.revise rfl fun _ g => (hf g).1, h.2.revise rfl fun _ g => (hf g).2⟩

namespace Registry

theorem keepsBlank_reset (key : String) : (reset key).Along Sandbox.KeepsBlank :=
  Along.chains.resetSession
    (Along.chains.writeJournal fun _ _ => .keepBlank_revise _ fun _ => ⟨rfl, rfl⟩)
    (Along.chains.writeMetadata fun _ _ => .keepBlank_revise _ fun _ => ⟨rfl, rfl⟩)
    (.change fun _ _ => id)
    (fun h => .bind (Along.chains.kill (fun _ _ _ => .change fun _ _ => id) h) fun _ =>
      .change fun _ _ => id)
    fun _ => .change fun _ _ h => h.remove _

theorem keepsBlank_sweep : (sweep Contexts.onSweep).Along Sandbox.KeepsBlank :=
  Along.chains.sweep keepsBlank_reset fun _ => Along.chains.onSweep
    (fun _ _ => Along.chains.forgetRun (.change fun _ _ => id) fun owner _ =>
      .change fun _ => by cases owner <;> exact fun _ => id)
    (fun _ => Along.chains.forgetChallenge (.change fun _ _ => id) fun _ => .change fun _ _ => id)
    (.change fun _ _ => id)

end Registry

/-! ### What surrounds a grading -/

/-- How what surrounds a grading behaves towards the next case. -/
structure Grading.Behaviour where
  /-- What the interpreter is going to do that comes up for a session, or why none comes up. -/
  start : Except Failure (List Scripted)
  byInputs : Option (List (String × Scripted))
  /-- The seed in force. -/
  seed : Option Int
  /-- The time that a case has when it is given none. -/
  usual : Binary64
  /-- The judge that is asked when no interpreter comes up, and for how long. -/
  judge : Option (RemoteClient × Binary64 × Judge)

/-- How a sandbox behaves towards the next case. When an interpreter comes up, neither the clock nor
the judge is part of that. -/
def Sandbox.behaviour (s : Sandbox) : Grading.Behaviour :=
  let up := Registry.comesUp s.setup.startupTimeout 2 s.scripts s.clock
  let fall := Registry.downfall s.setup.startupTimeout 2 s.scripts s.clock none .notInitialized
  { start := match up with
      | some script => .ok script.replies
      | none => .error fall.1
    byInputs := s.byInputs
    seed := s.appliedSeed
    usual := s.setup.batchTimeout
    judge := match up with
      | some _ => none
      | none => s.setup.remote.map fun c =>
        (c, s.setup.remoteMaxWait, ⟨fall.2, s.remoteScript, s.remoteClosed⟩) }

/-- A key that nobody has used: no session is registered under it, and in its folder, which can be
made, nothing was shown or printed. -/
structure Sandbox.Untaken (s : Sandbox) (key : String) (p : Path) : Prop where
  named : key ≠ ""
  folder : Registry.folderOf s.setup key = .ok p
  makeable : p.isMakeable = true
  unregistered : s.sessions.lookup key = none
  blank : s.folders.Blank p

variable {s t v : Sandbox} {others : Interrupts} {key : String} {p : Path}

structure Sandbox.SweptFor (key : String) (p : Path) (s v : Sandbox) : Prop where
  sane : v.Sane
  swept : s.Swept v
  untaken : v.Untaken key p
  behaviour : v.behaviour = s.behaviour

theorem Sandbox.Untaken.does_sweep (h : s.Untaken key p) (hs : s.Sane) :
    ∃ v, (Registry.sweep Contexts.onSweep).Does s () v ∧ SweptFor key p s v := by
  obtain ⟨v, hsweep, hv, hswept⟩ := Registry.does_sweep hs
  have htables := hswept.tables
  have hsetup : v.setup = s.setup := by rw [htables]
  have hblank := Registry.keepsBlank_sweep.holds (fun _ t => t) s
  rw [hsweep] at hblank
  refine ⟨v, hsweep, hv, hswept, ⟨h.named, ?_, h.makeable, ?_, hblank p h.blank⟩, ?_⟩
  · rw [hsetup]
    exact h.folder
  · cases hr : v.sessions.lookup key with
    | none => rfl
    | some r => exact absurd (h.unregistered.symm.trans (hswept.session hr)) nofun
  · rw [htables]
    rfl

namespace Registry

/-- The session of a key works in a folder, with a live interpreter that has yet to run a
program. -/
structure Seat (key : String) (p : Path) (replies : List Scripted) (t : Sandbox) (r : Nat)
    (x : Record) (c : Nat) (y : Child) : Prop where
  session : t.sessions.lookup key = some r
  record : t.records[r]? = some x
  handle : ∃ z, t.handles[x.handle]? = some z ∧ z.child = some c
  child : t.children[c]? = some y
  alive : y.alive = true
  replies : y.script.replies = replies
  folder : x.folder = p
  has : t.folders.has p = true
  shown : t.folders.Lacks (·.shown) p

structure Provided (key : String) (p : Path) (replies : List Scripted) (s t : Sandbox) (r : Nat)
    (x : Record) (c : Nat) (y : Child) : Prop extends Seat key p replies t r x c y where
  sane : t.Sane
  free : x.locked = false
  byInputs : t.byInputs = s.byInputs
  seed : t.appliedSeed = s.appliedSeed

/-- What is known of the folder of a seat is known of the handle on its interpreter. -/
theorem Seat.handle_folder {replies : List Scripted} {r c : Nat} {x : Record} {y : Child}
    (h : Seat key p replies t r x c y) (ht : t.Sane) :
    ∃ z, t.handles[x.handle]? = some z ∧ z.child = some c ∧ z.folder = p := by
  obtain ⟨z, hz, hc⟩ := h.handle
  obtain ⟨-, z', hz', hfolder⟩ := ht.record h.record
  obtain rfl := Option.some.inj (hz.symm.trans hz')
  exact ⟨z, hz, hc, hfolder.trans h.folder⟩

/-- When no interpreter comes up, the session is refused with the reason of the last start, and the
judge is met as it was. -/
theorem provide_falls (hs : s.Sane) (h : s.Untaken key p) (hplain : ∀ x ∈ s.scripts, x.Plain)
    (hnone : comesUp s.setup.startupTimeout 2 s.scripts s.clock = none) (others : Interrupts) :
    ∃ t, provide key others s = (.error (.startFailed key (downfall s.setup.startupTimeout 2
      s.scripts s.clock none .notInitialized).1.message), t) ∧ t.clock = (downfall
        s.setup.startupTimeout 2 s.scripts s.clock none .notInitialized).2 := by
  have hforetold := startTwice_foretold hs h.makeable s.setup.startupTimeout key 2 .notInitialized
    others
  rw [hnone] at hforetold
  obtain ⟨e, t, hfails, hwhy⟩ := hforetold
  obtain ⟨cause, rfl, -, hfall⟩ := hwhy hplain
  have hprinted : s.folders.printed p = none := h.blank.2
  rw [hprinted] at hfall
  have hstart : start key others s = (.error (.startFailed key cause.message), t) := by
    rw [start, (does_view _).step, h.folder]
    exact hfails
  refine ⟨t, ?_, ?_⟩
  · rw [hfall, provide, (does_view (find? · key)).step, find?, h.unregistered]
    simp only [enter, register, bind_apply, hstart]
  · rw [hfall]

theorem provide_rises (hs : s.Sane) (h : s.Untaken key p) {script : ChildScript}
    (hsome : comesUp s.setup.startupTimeout 2 s.scripts s.clock = some script)
    (habsent : others.Absent) :
    ∃ t r x c y, provide key others s = (.ok (), t) ∧
      Provided key p script.replies s t r x c y := by
  have hforetold := startTwice_foretold hs h.makeable s.setup.startupTimeout key 2 .notInitialized
    others
  rw [hsome] at hforetold
  have hnew : NewSession script p (start key others s) := by
    rw [start, (does_view _).step, h.folder]
    exact hforetold
  obtain ⟨t, r, x, c, y, henter, ht, hr, hattached, hreplies, hhas, -⟩ :=
    enter_eq_ok hs h.folder hnew
  have hprovide : provide key others s = (.ok (), t) := by
    rw [provide, (does_view (find? · key)).step, find?, h.unregistered]
    exact henter
  have hbeside := (beside_provide (o := .new s) h.folder others habsent s
    (.new s h.unregistered p)).1
  have hrecalls := (pervades_recalls.provide key).holds others s
  rw [hprovide] at hbeside hrecalls
  have hfolder := (hbeside.record hr hattached.record).2
  exact ⟨t, r, x, c, y, hprovide, ⟨hr, hattached.record, hattached.handle, hattached.child,
    hattached.alive, hreplies, hfolder, hfolder ▸ hhas, hrecalls.shown h.blank.1⟩, ht,
    hattached.free, hbeside.byInputs, hrecalls.appliedSeed⟩

end Registry

namespace Execution

open Registry

variable {q : Request} {consumed : Int → Op Unit}

def executeSwept (consumed : Int → Op Unit) (q : Request) : Op Outcome := do
  match ← Op.outcome (do provide q.key; pure q.key) with
  | .ok key => executeLocal consumed q key
  | .error e => unseated q e

theorem execute_of_sweep (hkey : q.key ≠ "") (hsweep : (sweep Contexts.onSweep).Does s () v) :
    execute Contexts.onSweep consumed q others s = executeSwept consumed q others v := by
  have hacquire : Op.outcome (acquire Contexts.onSweep (some q.key)) others s =
      Op.outcome (do provide q.key; pure q.key) others v := by
    unfold Op.outcome
    rw [acquire, hsweep.step, keyFor_some hkey, (does_pure q.key).step]
  exact Op.bind_congr hacquire _

theorem beside_executeSwept {b : Sandbox} {o : b.Own} (hp : folderOf b.setup q.key = .ok p)
    (hconsumed : ∀ n, (consumed n).Beside o q.key p fun _ => True) :
    (executeSwept consumed q).Beside o q.key p fun _ => True := by
  refine .bind (.outcome (.bind (beside_provide hp) fun _ _ => .pure (P := (· = q.key)) rfl))
    fun result hresult => ?_
  split
  · rename_i key
    rw [hresult key rfl]
    exact beside_executeLocal hconsumed q
  · exact beside_unseated q _

/-- An execution on a session that was provided for it comes to what its interpreter makes of it. -/
theorem executeLocal_provided {replies : List Scripted} {r c : Nat} {x : Record} {y : Child}
    (h : Provided q.key p replies s t r x c y) (habsent : others.Absent)
    (hconsumed : ∀ n, (consumed n).Aside) {o : Int → Outcome}
    (hcomes : q.Comes o (q.saysTo s.appliedSeed (Process.reaction s.byInputs replies q.values))) :
    ∃ ms u, executeLocal consumed q q.key others t = (.ok (o ms), u) := by
  obtain ⟨z, hz, hc, hfolder⟩ := h.handle_folder h.sane
  obtain ⟨u, huse, hu, hsame⟩ := Interpreter.execute_reaction (s := held t r) habsent
    (sane_held h.sane r) hz hc h.child h.alive (hfolder ▸ h.shown) (hfolder ▸ h.has) q
  have hout : q.saysTo (held t r).appliedSeed (Process.reaction (held t r).byInputs
      y.script.replies q.values) =
        q.saysTo s.appliedSeed (Process.reaction s.byInputs replies q.values) := by
    show q.saysTo t.appliedSeed (Process.reaction t.byInputs _ _) = _
    rw [h.seed, h.byInputs, h.replies]
  rw [hout] at huse
  obtain ⟨ms, u, hexecute, -, -⟩ := executeLocal_of_comes h.session h.record h.free
    hconsumed huse hu hsame hcomes
  exact ⟨ms, u, hexecute⟩

/-- What an execution gives where what surrounds it behaves in a way. -/
inductive Gives (b : Grading.Behaviour) (q : Request) : Except Failure Outcome → Prop where
  /-- An interpreter comes up and makes something of the program. -/
  | ran {replies : List Scripted} {o : Int → Outcome} (ms : Int) : b.start = .ok replies →
      q.Comes o (q.saysTo b.seed (Process.reaction b.byInputs replies q.values)) →
      Gives b q (.ok (o ms))
  /-- No interpreter comes up, and there is no judge. -/
  | fell {e : Failure} : b.start = .error e → b.judge = none →
      Gives b q (.error (.startFailed q.key e.message))
  /-- No interpreter comes up, and the judge makes something of the program. -/
  | judged {e : Failure} {c : RemoteClient} {maxWait : Binary64} {j : Judge}
      {result : Except Failure Outcome} : b.start = .error e → b.judge = some (c, maxWait, j) →
      (∀ s : Sandbox, s.judge = j →
        (executeRemote c maxWait q j.clock (fun _ u => u) s).1 = result) →
      Gives b q result

/-- What is needed of what surrounds an execution, for something to be made of it. -/
structure Met (b : Grading.Behaviour) (q : Request) : Prop where
  reads {replies : List Scripted} : b.start = .ok replies →
    q.Reads (Process.reaction b.byInputs replies q.values).ended
  judge {c : RemoteClient} {maxWait : Binary64} {j : Judge} : b.judge = some (c, maxWait, j) →
    j.Fit c RemoteClient.Usable

theorem executeSwept_rises (hs : v.Sane) (h : v.Untaken q.key p) {script : ChildScript}
    (hup : comesUp v.setup.startupTimeout 2 v.scripts v.clock = some script)
    (hmet : Met v.behaviour q) (habsent : others.Absent) :
    ∃ o u, executeSwept (fun _ => pure ()) q others v = (.ok o, u) ∧
      Gives v.behaviour q (.ok o) := by
  have hstart : v.behaviour.start = .ok script.replies := by
    simp only [behaviour, hup]
  obtain ⟨t, r, x, c, y, hprovide, hprovided⟩ := provide_rises hs h hup habsent
  obtain ⟨o, hcomes⟩ := Request.comes_saysTo (hmet.reads hstart) v.behaviour.seed
  obtain ⟨ms, u, hexecute⟩ := executeLocal_provided hprovided habsent
    (fun _ _ s hs => ⟨s, rfl, hs, .refl s⟩) hcomes
  have hok : Op.outcome (do provide q.key; pure q.key) others v = (.ok (.ok q.key), t) := by
    unfold Op.outcome
    rw [bind_apply, hprovide]
    rfl
  refine ⟨o ms, u, ?_, .ran ms hstart hcomes⟩
  rw [executeSwept, bind_apply, hok]
  exact hexecute

/-- When no interpreter comes up, no session is provided, and the judge is asked, if there is
one. -/
theorem unseated_falls (hs : v.Sane) (h : v.Untaken q.key p)
    (hplain : ∀ x ∈ v.scripts, x.Plain)
    (hup : comesUp v.setup.startupTimeout 2 v.scripts v.clock = none)
    (hmet : Met v.behaviour q) (hcancel : q.cancel = .noEvent) :
    ∃ e t result u, provide q.key (fun _ u => u) v = (.error e, t) ∧
      unseated q e (fun _ u => u) t = (result, u) ∧
      Gives v.behaviour q result ∧ ∀ e, result = .error e → e.isSandbox = true := by
  have habsent : Interrupts.Absent fun _ u => u := fun _ _ => rfl
  generalize hfall : downfall v.setup.startupTimeout 2 v.scripts v.clock none .notInitialized = fall
  have hstart : v.behaviour.start = .error fall.1 := by
    simp only [behaviour, hup, hfall]
  obtain ⟨t, hprovide, hclock⟩ := provide_falls hs h hplain hup (fun _ u => u)
  rw [hfall] at hprovide hclock
  have hsetup : t.setup = v.setup := by
    have hbeside := (beside_provide (o := .new v) h.folder _ habsent v
      (.new v h.unregistered p)).1.setup
    rw [hprovide] at hbeside
    exact hbeside
  have hjudge : t.judge = ⟨fall.2, v.remoteScript, v.remoteClosed⟩ := by
    have hrecalls := (pervades_recalls.provide q.key).holds (fun _ u => u) v
    rw [hprovide] at hrecalls
    rw [judge, hclock, hrecalls.remoteScript, hrecalls.remoteClosed]
  rw [hprovide]
  suffices h : ∃ result u, unseated q (.startFailed q.key fall.1.message) (fun _ u => u) t =
      (result, u) ∧ Gives v.behaviour q result ∧ ∀ e, result = .error e → e.isSandbox = true by
    obtain ⟨result, u, hrest⟩ := h
    exact ⟨_, t, result, u, rfl, hrest⟩
  rw [unseated, (does_view (·.setup.remote)).step, hsetup]
  cases hremote : v.setup.remote with
  | none =>
      refine ⟨_, t, rfl, .fell hstart ?_, fun e he => Except.error.inj he ▸ rfl⟩
      simp only [behaviour, hup, hremote, Option.map_none]
  | some c =>
      have hj : v.behaviour.judge = some (c, v.setup.remoteMaxWait, t.judge) := by
        simp only [behaviour, hup, hremote, hfall, hjudge, Option.map_some]
      obtain ⟨r, j', -, hall, hends⟩ := judged_executeRemote c v.setup.remoteMaxWait hcancel
        t.clock (fun _ u => u) habsent t.judge (hmet.judge hj)
      rcases hremoted : executeRemote c v.setup.remoteMaxWait q t.clock (fun _ u => u)
        t with ⟨r', u⟩
      obtain rfl : r = r' := (hall t rfl).1.symm.trans (congrArg Prod.fst hremoted)
      rw [← hsetup] at hremoted
      exact ⟨r, u, hremoted, .judged hstart hj fun s hs => (hall s hs).1,
        fun e he => by rwa [he] at hends⟩

theorem executeSwept_falls (hs : v.Sane) (h : v.Untaken q.key p)
    (hplain : ∀ x ∈ v.scripts, x.Plain)
    (hup : comesUp v.setup.startupTimeout 2 v.scripts v.clock = none)
    (hmet : Met v.behaviour q) (hcancel : q.cancel = .noEvent) :
    ∃ result u, executeSwept (fun _ => pure ()) q (fun _ u => u) v = (result, u) ∧
      Gives v.behaviour q result ∧ ∀ e, result = .error e → e.isSandbox = true := by
  obtain ⟨e, t, result, u, hprovide, hunseated, hrest⟩ :=
    unseated_falls hs h hplain hup hmet hcancel
  have herror : Op.outcome (do provide q.key; pure q.key) (fun _ u => u) v =
      (.ok (.error e), t) := by
    unfold Op.outcome
    rw [bind_apply, hprovide]
  refine ⟨result, u, ?_, hrest⟩
  rw [executeSwept, bind_apply, herror]
  exact hunseated

/-- An execution under a key that nobody has used gives an outcome, or fails as the sandbox reports
it. Beside that, sessions are swept, and nothing happens but to the session of the key. -/
theorem execute_gives (hs : s.Sane) (h : s.Untaken q.key p) (hplain : ∀ x ∈ s.scripts, x.Plain)
    (hmet : Met s.behaviour q) (hcancel : q.cancel = .noEvent) (habsent : others.Absent) :
    ∃ v u result, (sweep Contexts.onSweep).Does s () v ∧ s.SweptFor q.key p v ∧
      execute Contexts.onSweep (fun _ => pure ()) q others s = (result, u) ∧
      (Own.new v).Beside q.key p u ∧ Gives s.behaviour q result ∧
      ∀ e, result = .error e → e.isSandbox = true := by
  obtain rfl : others = fun _ u => u := funext₂ habsent
  obtain ⟨v, hsweep, hv⟩ := h.does_sweep hs
  have hplain : ∀ x ∈ v.scripts, x.Plain := by
    rw [hv.swept.tables]
    exact hplain
  rw [← hv.behaviour] at hmet ⊢
  obtain ⟨result, u, hresult, hgives, hends⟩ : ∃ result u,
      executeSwept (fun _ => pure ()) q (fun _ u => u) v = (result, u) ∧
        Gives v.behaviour q result ∧ ∀ e, result = .error e → e.isSandbox = true := by
    cases hup : comesUp v.setup.startupTimeout 2 v.scripts v.clock with
    | some script =>
        obtain ⟨o, u, hresult, hgives⟩ :=
          executeSwept_rises hv.sane hv.untaken hup hmet habsent
        exact ⟨.ok o, u, hresult, hgives, nofun⟩
    | none => exact executeSwept_falls hv.sane hv.untaken hplain hup hmet hcancel
  have hconsumed (n : Int) :
      ((fun _ => pure () : Int → Op Unit) n).Beside (.new v) q.key p fun _ => True :=
    .pure trivial
  have hbeside := (beside_executeSwept hv.untaken.folder hconsumed _ habsent v
    (.new v hv.untaken.unregistered p)).1
  rw [hresult] at hbeside
  exact ⟨v, u, result, hsweep, hv, (execute_of_sweep h.named hsweep).trans hresult, hbeside, hgives,
    hends⟩

end Execution

/-! ### Verdicts -/

/-- Results of executions for two keys that differ at most in what they say of the time, and in the
key of a session that could not be started. -/
inductive Execution.Alike (key key' : String) :
    Except Failure Outcome → Except Failure Outcome → Prop where
  | ran {o o' : Outcome} : o' = { o with timeMs := o'.timeMs } → Alike key key' (.ok o) (.ok o')
  | same (result : Except Failure Outcome) : Alike key key' result result
  | fell (reason : String) :
      Alike key key' (.error (.startFailed key reason)) (.error (.startFailed key' reason))

namespace Execution

variable {b : Grading.Behaviour} {q : Request} {key' : String}
  {result result' : Except Failure Outcome}

theorem Request.Comes.unique {o o' : Int → Outcome} {out : Except Failure Json} (h : q.Comes o out)
    (h' : { q with key := key' }.Comes o' out) : o' = o := by
  cases h with
  | reply _ hout =>
      cases h' with
      | reply _ hout' => exact funext fun ms => Except.ok.inj ((hout' ms).symm.trans (hout ms))
  | lost _ ho =>
      cases h' with
      | lost _ ho' => exact funext fun ms => (ho' ms).symm.trans (ho ms)

/-- What surrounds an execution decides what it gives, whatever the key of its session. -/
theorem Gives.alike (h : Gives b q result) (h' : Gives b { q with key := key' } result') :
    Alike q.key key' result result' := by
  cases h with
  | ran ms hstart hcomes =>
      cases h' with
      | ran ms' hstart' hcomes' =>
          obtain rfl := Except.ok.inj (hstart.symm.trans hstart')
          obtain rfl := hcomes.unique hcomes'
          exact .ran (hcomes.time ms ms' ▸ rfl)
      | fell hstart' => exact absurd (hstart.symm.trans hstart') nofun
      | judged hstart' => exact absurd (hstart.symm.trans hstart') nofun
  | fell hstart hnone =>
      cases h' with
      | ran _ hstart' => exact absurd (hstart.symm.trans hstart') nofun
      | fell hstart' =>
          obtain rfl := Except.error.inj (hstart.symm.trans hstart')
          exact .fell _
      | judged _ hsome => exact absurd (hnone.symm.trans hsome) nofun
  | @judged e c maxWait j _ hstart hsome hall =>
      cases h' with
      | ran _ hstart' => exact absurd (hstart.symm.trans hstart') nofun
      | fell _ hnone => exact absurd (hnone.symm.trans hsome) nofun
      | judged _ hsome' hall' =>
          obtain ⟨rfl, hrest⟩ := Prod.mk.inj (Option.some.inj (hsome.symm.trans hsome'))
          obtain ⟨rfl, rfl⟩ := Prod.mk.inj hrest
          let s : Sandbox := { usual with
            clock := j.clock, remoteScript := j.script, remoteClosed := j.closed }
          rw [← hall s rfl, ← hall' s rfl]
          exact .same _

end Execution

namespace Checker

def accepted (c : Checker) (got want : String) : Bool :=
  match c.accepts (.str got) (.str want) with
  | .ok b => b
  | .error _ => false

theorem accepts_str (c : Checker) (got want : String) :
    c.accepts (.str got) (.str want) = .ok (c.accepted got want) := by
  cases c with
  | exactMatch => rfl
  | unorderedListEqual => rfl
  | floatIsclose =>
      have hclose : ∃ b, closeNumbers (.str got) (.str want) = .ok b := by
        have hnumber (text : String) : number? (.str text) = .ok (Binary64.read? text) := rfl
        rw [closeNumbers, hnumber, hnumber]
        cases Binary64.read? got with
        | none => exact ⟨false, rfl⟩
        | some x =>
            cases Binary64.read? want with
            | none => exact ⟨false, rfl⟩
            | some y => exact ⟨x.isClose y, rfl⟩
      obtain ⟨b, hb⟩ := hclose
      simp [accepted, accepts, hb]

end Checker

/-- Verdicts on one case that differ at most in what they say of the time, and in the key of a
session that could not be started. -/
structure Verdict.Alike (key key' : String) (v v' : Verdict) : Prop where
  input : v'.input = v.input
  expected : v'.expected = v.expected
  actual : v'.actual = v.actual
  passed : v'.passed = v.passed
  status : v'.status = v.status
  error : v'.error = v.error ∨ ∃ reason, v.error = some (Failure.startFailed key reason).message ∧
    v'.error = some (Failure.startFailed key' reason).message

namespace Grading

variable {r : Request} {checker : Checker} {result result' : Except Failure Outcome}

def verdict (r : Request) (checker : Checker) : Except Failure Outcome → Verdict
  | .ok o =>
    { input := r.input, expected := r.expected, actual := o.stdout,
      passed := o.ok && r.expected.all (checker.accepted o.stdout), status := o.status,
      error := o.error, timeMs := o.timeMs }
  | .error e => unexecuted r e

theorem judge_eq (r : Request) (checker : Checker) (o : Outcome) :
    judge r checker o = .ok (verdict r checker (.ok o)) := by
  cases hok : o.ok <;> cases hwant : r.expected <;>
    simp [judge, verdict, hok, hwant, Checker.accepts_str, bind, Except.bind, pure, Except.pure]

/-- A verdict is given on whatever comes of a case but a failure that is for others to report. -/
theorem conclusion_eq_ok {v : Verdict} : conclusion r checker result = .ok v ↔
    v = verdict r checker result ∧ ∀ e, result = .error e → e.isSandbox = true := by
  cases result with
  | ok o =>
      rw [conclusion, judge_eq]
      exact ⟨fun h => ⟨(Except.ok.inj h).symm, nofun⟩, fun h => congrArg Except.ok h.1.symm⟩
  | error e =>
      rw [conclusion]
      split
      · rename_i he
        exact ⟨fun h => ⟨(Except.ok.inj h).symm, fun _ h' => Except.error.inj h' ▸ he⟩,
          fun h => congrArg Except.ok h.1.symm⟩
      · rename_i he
        exact ⟨nofun, fun h => absurd (h.2 e rfl) he⟩

/-- A case passes when its program ends well and what it has shown is accepted, if something was
expected. -/
theorem passed_verdict : (verdict r checker result).passed = true ↔ ∃ o, result = .ok o ∧
    o.status = .success ∧ ∀ want, r.expected = some want →
      checker.accepts (.str o.stdout) (.str want) = .ok true := by
  cases result with
  | error e => simp [verdict, unexecuted]
  | ok o => cases hwant : r.expected <;> simp [verdict, Outcome.ok, Checker.accepts_str, hwant]

theorem verdict_alike {key key' : String} (h : Execution.Alike key key' result result') :
    (verdict r checker result).Alike key key' (verdict r checker result') := by
  cases h with
  | @ran o o' h =>
      rw [h]
      exact ⟨rfl, rfl, rfl, rfl, rfl, .inl rfl⟩
  | same => exact ⟨rfl, rfl, rfl, rfl, rfl, .inl rfl⟩
  | fell reason => exact ⟨rfl, rfl, rfl, rfl, rfl, .inr ⟨reason, rfl, rfl⟩⟩

end Grading

end Rerun
