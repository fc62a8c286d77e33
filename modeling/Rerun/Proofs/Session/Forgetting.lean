import Rerun.Proofs.Remote.Escapes
import Rerun.Proofs.Sandbox.Conduct
import Rerun.Proofs.Sandbox.FailedStarts
import Rerun.Proofs.Sandbox.Flights
import Rerun.Proofs.Sandbox.Reactions
import Rerun.Proofs.Sandbox.Recalls
import Rerun.Proofs.Session.Occupancy

/-!
What the engine forgets. A run is forgotten, and its seed with it, when the session of its context
is swept; that is at the next call for any session, if the session is registered and was not used
for long. A session that was lost is swept no more, so that the run of an attempt that has timed out
stays, however much later other sessions are asked for (`Sandbox.Fresh.forgotten_iff_idle`).
-/

namespace Rerun

open Sandbox Op

variable {s t u : Sandbox} {b : Scene} {others : Interrupts} {c key : String} {i : Nat}
  {x : RunInfo}

/-! ### The names of sessions -/

namespace Contexts

theorem splitKey_eq_run_iff :
    splitKey key = ("run", c) ↔ key = runKey c ∨ key = "run" ∧ c = "" := by
  constructor
  · intro h
    obtain ⟨hkind, hname⟩ := Prod.mk.inj h
    have hkind : key.toList.takeWhile (· ≠ '-') = "run".toList := by
      rw [← hkind, String.toList_ofList]
    have hkey := List.takeWhile_append_dropWhile (p := (· ≠ '-')) (l := key.toList)
    rw [hkind] at hkey
    cases hrest : key.toList.dropWhile (· ≠ '-') with
    | nil =>
        rw [hrest] at hkey hname
        exact .inr ⟨String.toList_inj.mp hkey.symm, hname.symm⟩
    | cons d rest =>
        have hdash := List.head?_dropWhile_not (· ≠ '-') key.toList
        rw [hrest] at hkey hname hdash
        obtain rfl : d = '-' := by simpa using hdash
        refine .inl (String.toList_inj.mp ?_)
        rw [← hkey, ← hname]
        simp [runKey]
  · rintro (rfl | ⟨rfl, rfl⟩)
    · simp [splitKey, runKey, String.toList_append]
    · decide

end Contexts

/-! ### What is forgotten stays so -/

theorem Op.Does.state_eq {α : Type} {y : Op α} {a a' : α} (h : y.Does s a t) (h' : y.Does s a' u) :
    t = u :=
  (Prod.mk.inj ((h fun _ s => s).symm.trans (h' fun _ s => s))).2

theorem Assoc.lookup_drop_of_none {α β : Type} [DecidableEq α] {xs : List (α × β)} {k : α}
    (h : xs.lookup k = none) (dropped : α) : (drop xs dropped).lookup k = none := by
  rw [lookup_drop, h, ite_self]

/-- What others have no part in does to the runs what it does when nobody else is there. -/
theorem Sandbox.IsFrame.alone {α : Type} {R : Sandbox → Sandbox → Prop} (hR : IsFrame R) {x : Op α}
    (hx : x.Frames R) (hdeaf : x.Deaf) (others : Interrupts) (s : Sandbox) :
    R s (x others s).2 := by
  rw [hdeaf.deaf others fun _ s => s]
  exact hx (fun _ s => hR.same (.refl s)) s

namespace Contexts

/-- Nothing is left of a run: its context has none, and its seed is gone. -/
structure Forgotten (c runId : String) (s : Sandbox) : Prop where
  run : run? c s = none
  seed : s.engineSeeds.lookup runId = none

/-- A context has a run, which is not in flight. -/
structure Rests (c : String) (i : Nat) (x : RunInfo) (s : Sandbox) : Prop where
  context : run? c s = some i
  run : s.runs[i]? = some x
  landed : x.inFlight = false

theorem isFrame_forgotten (c runId : String) :
    IsFrame fun s t => Forgotten c runId s → Forgotten c runId t where
  same h hs := by
    refine ⟨?_, ?_⟩
    · rw [run?, h.contexts]
      exact hs.run
    · rw [h.engineSeeds]
      exact hs.seed
  trans h h' := h' ∘ h

theorem isFrame_rests (c : String) (i : Nat) (x : RunInfo) :
    IsFrame fun s t => Rests c i x s → Rests c i x t where
  same h hs := by
    refine ⟨?_, ?_, hs.landed⟩
    · rw [run?, h.contexts]
      exact hs.context
    · rw [h.runs]
      exact hs.run
  trans h h' := h' ∘ h

/-- When a session is swept, at most the context is left and the seed is dropped that go with its
key. -/
theorem frames_onSweep {R : Sandbox → Sandbox → Prop} (hR : IsFrame R)
    (hdrop : ∀ c, splitKey key = ("run", c) →
      ∀ s : Sandbox, R s { s with contexts := Assoc.drop s.contexts c })
    (hseed : ∀ owner runId s, R s (Seeds.setTable owner (Assoc.drop · runId) s)) :
    (onSweep key).Frames R :=
  hR.composes.onSweep
    (fun c hc => hR.composes.forgetRun (fun _ _ s => hdrop c hc s)
      fun owner runId _ _ s => hseed owner runId s)
    (fun _ => hR.composes.forgetChallenge (hR.change fun _ => ⟨rfl, rfl, rfl, rfl, rfl⟩)
      fun _ => hR.change fun _ => ⟨rfl, rfl, rfl, rfl, rfl⟩)
    (hR.change fun _ => ⟨rfl, rfl, rfl, rfl, rfl⟩)

theorem frames_onSweep_forgotten (key c runId : String) :
    (onSweep key).Frames fun s t => Forgotten c runId s → Forgotten c runId t := by
  refine frames_onSweep (isFrame_forgotten c runId)
    (fun c' _ s hs => ⟨Assoc.lookup_drop_of_none hs.run c', hs.seed⟩) fun owner id s hs => ?_
  cases owner with
  | engine => exact ⟨hs.run, Assoc.lookup_drop_of_none hs.seed id⟩
  | other => exact ⟨hs.run, hs.seed⟩

/-- A run that rests is forgotten when the session of its context is swept. -/
theorem forgotten_of_onSweep (hs : s.Sane) (hrests : Rests c i x s)
    (hkey : splitKey key = ("run", c)) (hdoes : (onSweep key).Does s () t) :
    Forgotten c x.runId t := by
  obtain ⟨y, hy, -, howner, -⟩ := hs.context hrests.context
  obtain rfl := Option.some.inj (hrests.run.symm.trans hy)
  have hfound : s.contexts.lookup c = some i := hrests.context
  have hrun : (Sandbox.run i).Does s x s := does_need hrests.run
  have hforget : (forgetFor (splitKey key)).Does s () (forgotten s c x) := by
    intro others
    simp [hkey, forgetFor, forgetRun, bind_apply, Op.view, run?, hfound, hrun others, hrests.landed,
      Op.change, Seeds.forget, howner, Seeds.setTable, forgotten]
  have hsweep : (onSweep key).Does s () { forgotten s c x with swept := s.swept ++ [key] } :=
    hforget.bind (does_change _)
  rw [hdoes.state_eq hsweep]
  exact ⟨Assoc.lookup_drop_self _ _, Assoc.lookup_drop_self _ _⟩

theorem frames_onSweep_rests (h : splitKey key ≠ ("run", c)) :
    (onSweep key).Frames fun s t => Rests c i x s → Rests c i x t := by
  refine frames_onSweep (isFrame_rests c i x) (fun c' hc' s hs => ⟨?_, hs.run, hs.landed⟩)
    fun owner _ s hs => ?_
  · refine (Assoc.lookup_drop_of_ne _ ?_).trans hs.context
    rintro rfl
    exact h hc'
  · cases owner with
    | engine => exact ⟨hs.context, hs.run, hs.landed⟩
    | other => exact ⟨hs.context, hs.run, hs.landed⟩

end Contexts

namespace Registry

open Contexts

def Expires (c : String) (s : Sandbox) (e : String × Nat) : Prop :=
  splitKey e.1 = ("run", c) ∧ ∃ y, s.records[e.2]? = some y ∧ isIdle s y = true

namespace Sweeps

variable {before : Sandbox} {listed : List (String × Nat)}

theorem stays_forgotten {runId : String} (h : Sweeps before listed s t)
    (hs : Forgotten c runId s) : Forgotten c runId t := by
  induction h with
  | done s => exact hs
  | spare _ _ _ ih => exact ih hs
  | @take e rest s t u v y _ _ htorn hnote _ _ _ _ ih =>
      have hu : Forgotten c runId u := by
        rw [htorn.tables]
        exact { hs with }
      have hv := (isFrame_forgotten c runId).alone (frames_onSweep_forgotten e.1 c runId)
        (recalls_onSweep e.1).isDeaf (fun _ s => s) u hu
      rw [hnote] at hv
      exact ih hv

/-- A sweep forgets the run of a context when it finds an idle session for it, and only then. -/
theorem forgets (h : Sweeps before listed s t) (hs : s.Sane) (hrests : Rests c i x s)
    (hrecords : s.records = before.records) :
    ((∃ e ∈ listed, Expires c before e) → Forgotten c x.runId t) ∧
      ((∀ e ∈ listed, ¬ Expires c before e) → Rests c i x t) := by
  induction h with
  | done s => exact ⟨by simp, fun _ => hrests⟩
  | @spare e rest s t y hy hidle _ ih =>
      have hnot : ¬ Expires c before e := by
        rintro ⟨-, z, hz, hidle'⟩
        obtain rfl := Option.some.inj (hy.symm.trans (hrecords ▸ hz))
        exact absurd (hidle.symm.trans hidle') Bool.false_ne_true
      simpa only [List.exists_mem_cons_iff, List.forall_mem_cons, hnot, false_or, true_and,
        not_false_eq_true] using ih hs hrests hrecords
  | @take e rest s t u v y hy hidle htorn hnote hv hswept _ hsweeps ih =>
      have hu : Rests c i x u := by
        rw [htorn.tables]
        exact { hrests with }
      by_cases hkey : splitKey e.1 = ("run", c)
      · have hexpires : Expires c before e := ⟨hkey, y, hrecords ▸ hy, hidle⟩
        have hgone : Forgotten c x.runId t :=
          hsweeps.stays_forgotten (forgotten_of_onSweep htorn.sane hu hkey hnote)
        exact ⟨fun _ => hgone, fun h => absurd hexpires (h e List.mem_cons_self)⟩
      · have hv' := (isFrame_rests c i x).alone (frames_onSweep_rests hkey)
          (recalls_onSweep e.1).isDeaf (fun _ s => s) u hu
        rw [hnote] at hv'
        have hnot : ¬ Expires c before e := fun h => hkey h.1
        simpa only [List.exists_mem_cons_iff, List.forall_mem_cons, hnot, false_or, true_and,
          not_false_eq_true] using ih hv hv' ((hswept.records.trans htorn.records).trans hrecords)

end Sweeps

/-- The next call for a session forgets the run of a context when an idle session is registered for
it, and only then. -/
theorem acquire_run (hs : s.Sane) (hrests : Rests c i x s) (key : Option String)
    (others : Interrupts) :
    ((∃ e ∈ s.sessions, Expires c s e) → Forgotten c x.runId (acquire onSweep key others s).2) ∧
      ((∀ e ∈ s.sessions, ¬ Expires c s e) → Rests c i x (acquire onSweep key others s).2) := by
  obtain ⟨t, hsweep, hsweeps⟩ := sweep_sweeps hs
  obtain ⟨hgone, hthere⟩ := hsweeps.forgets hs hrests rfl
  have hdeaf : (do
      let k ← keyFor key
      provide k
      pure k : Op String).Deaf :=
    .bind (pervades_recalls.keyFor .drawId key).isDeaf fun k =>
      .bind (pervades_recalls.provide k).isDeaf fun _ => .pure k
  rw [acquire, hsweep.step]
  refine ⟨fun h => ?_, fun h => ?_⟩
  · exact (isFrame_forgotten c x.runId).alone (frames_got (isFrame_forgotten c x.runId) key) hdeaf
      others t (hgone h)
  · exact (isFrame_rests c i x).alone (frames_got (isFrame_rests c i x) key) hdeaf others t
      (hthere h)

end Registry

/-! ### What is never forgotten -/

def Sandbox.later (s : Sandbox) (ms : Int) : Sandbox := { s with clock := s.clock + ms }

theorem Sandbox.Drifts.later (s : Sandbox) (ms : Int) : s.Drifts (s.later ms) :=
  .of_passes { Sandbox.Passes.refl s with tables := { SameTables.refl s with } }

namespace Registry

open Contexts

theorem sessions_enter (hs : s.Sane) (key : String) (others : Interrupts) :
    (enter key others s).2.sessions = s.sessions ∨
      ∃ r, (enter key others s).2.sessions = Assoc.put s.sessions key r := by
  have hregister : (register key others s).2.sessions = s.sessions ∨
      ∃ r, (register key others s).2.sessions = Assoc.put s.sessions key r := by
    obtain ⟨result, t, u, hstart, -, htries, ⟨⟨e, rfl⟩, rfl⟩ | ⟨rfl, p, -, hadds⟩⟩ :=
      start_tries hs key others
    · rw [register, bind_apply, hstart]
      exact .inl (sameTables_of_tries htries).sessions
    · obtain ⟨v, y, z, hopens, rfl, -⟩ := hadds.opens
      rw [register, bind_apply, hstart]
      refine .inr ⟨u.records.length, congrArg (Assoc.put · key _) ?_⟩
      exact hopens.tables.sessions.trans (sameTables_of_tries htries).sessions
  have hwritten (r : Nat) : (do
      let info ← record r
      let t ← now
      writeMetadata key [("session_id", .str key), ("created_at", timeText t),
        ("session_dir", .str info.folder.text), ("execution_count", .int 0),
        ("last_used", timeText t)]
      writeJournal key [("event", .str "session_started")] : Op Unit).Passes :=
    .bind (.need _) fun _ => .bind (.view _) fun _ =>
      .bind (passes_writeMetadata _ _) fun _ => passes_writeJournal _ _
  rw [enter, bind_apply]
  rcases hr : register key others s with ⟨e | r, t⟩ <;> rw [hr] at hregister
  · exact hregister
  · dsimp only
    rw [((hwritten r).apply others t).tables.sessions]
    exact hregister

theorem sessions_usable (r : Nat) (others : Interrupts) :
    (usable r others s).2.sessions = s.sessions := by
  have hprobe (h : Nat) (v : Sandbox) : ((do
      if ← Interpreter.probe h then do
        let t ← now
        setRecord r fun x => { x with lastUsed := t }
        pure true
      else pure false : Op Bool) others v).2.sessions = v.sessions := by
    have hpasses := ((Interpreter.passes_probe h).apply others v).tables.sessions
    rw [bind_apply]
    rcases hp : Interpreter.probe h others v with ⟨_ | _ | _, w⟩ <;> rw [hp] at hpasses <;>
      exact hpasses
  cases hx : s.records[r]? with
  | none =>
      have hrecord : record r others s = (.error (.other "KeyError"), s) := by
        simp [record, Sandbox.need, hx]
      rw [usable, bind_apply, hrecord]
  | some y =>
      have hrecord : (record r).Does s y s := does_need hx
      rw [usable, hrecord.step]
      cases y.state with
      | ready => exact hprobe y.handle s
      | busy => rfl
      | uninitialized => rfl
      | corrupted => rfl

theorem find?_provide_of_ne {k : String} (hs : s.Sane) (hk : k ≠ key) (hnone : find? s k = none)
    (others : Interrupts) : find? (provide key others s).2 k = none := by
  have henter {v : Sandbox} (hv : v.Sane) (hnone : find? v k = none) :
      find? (enter key others v).2 k = none := by
    obtain h | ⟨r, h⟩ := sessions_enter hv key others
    · rw [find?, h]
      exact hnone
    · rw [find?, h, Assoc.lookup_put_of_ne _ _ hk]
      exact hnone
  rw [provide, (does_view _).step]
  cases hr : find? s key with
  | none => exact henter hs hnone
  | some r =>
      have husable := sessions_usable (s := s) r others
      have hgoes := goes_usable r others s hs
      dsimp only
      rw [bind_apply]
      rcases hu : usable r others s with ⟨e | use, u⟩ <;> rw [hu] at husable hgoes
      · rw [find?, husable]
        exact hnone
      · have hnone' : find? u k = none := by
          rw [find?, husable]
          exact hnone
        dsimp only
        split
        · exact hnone'
        · obtain ⟨v, hreset, htorn⟩ := does_reset (hgoes.sane hs) key
          rw [hreset.step]
          refine henter htorn.sane ?_
          rw [find?, htorn.sessions]
          exact Assoc.lookup_drop_of_none hnone' key

/-- Time passes and a session is asked for, again and again. -/
def askAll (others : Interrupts) : List (Int × Option String) → Sandbox → Sandbox
  | [], s => s
  | (ms, asked) :: later, s =>
    askAll others later (acquire onSweep asked others (s.later ms)).2

def Unattended (c : String) (s : Sandbox) : Prop := ∀ k, splitKey k = ("run", c) → find? s k = none

theorem splitKey_of_keyFor {asked : Option String} {k : String}
    (h : keyFor asked others s = (.ok k, t))
    (hasked : ∀ k, asked = some k → splitKey k ≠ ("run", c)) : splitKey k ≠ ("run", c) := by
  have hanonymous (h : keyFor.anonymous others s = (.ok k, t)) : splitKey k ≠ ("run", c) := by
    rw [← Except.ok.inj (Prod.mk.inj h).1, ne_eq, splitKey_eq_run_iff]
    rintro (hrun | ⟨hrun, -⟩) <;>
      simpa [runKey, String.toList_append] using congrArg String.toList hrun
  unfold keyFor at h
  split at h
  · split at h
    · exact hanonymous h
    · exact hasked k (congrArg some (Except.ok.inj (Prod.mk.inj h).1))
  · exact hanonymous h

/-- As long as no session is registered for its context, a run is not forgotten, and calls for other
sessions register none. -/
theorem acquire_unattended (hs : s.Sane) (hrests : Rests c i x s) (hnone : Unattended c s)
    {asked : Option String} (hasked : ∀ k, asked = some k → splitKey k ≠ ("run", c))
    (others : Interrupts) :
    Sane (acquire onSweep asked others s).2 ∧ Rests c i x (acquire onSweep asked others s).2 ∧
      Unattended c (acquire onSweep asked others s).2 := by
  refine ⟨(goes_acquire asked others s hs).sane hs,
    (acquire_run hs hrests asked others).2 fun e he hexpires => ?_, fun k hk => ?_⟩
  · exact absurd (List.lookup_eq_none_iff.mp (hnone e.1 hexpires.1) e he) (by simp)
  · obtain ⟨t, hsweep, ht, hswept⟩ := does_sweep hs
    have hnone' : find? t k = none := by
      cases hr : find? t k with
      | none => rfl
      | some r => exact (hswept.session hr).symm.trans (hnone k hk)
    rw [acquire, hsweep.step, bind_apply]
    have hdrifts := drifts_keyFor asked others t
    rcases hkey : keyFor asked others t with ⟨e | k', u⟩ <;> rw [hkey] at hdrifts <;>
      rw [find?, ← hdrifts.sessions] at hnone'
    · exact hnone'
    · have hne : k ≠ k' := by
        rintro rfl
        exact (splitKey_of_keyFor hkey hasked) hk
      have hprovide := find?_provide_of_ne (hdrifts.sane ht) hne hnone' others
      dsimp only
      rw [bind_apply]
      rcases hp : provide k' others u with ⟨_ | _, v⟩ <;> rw [hp] at hprovide <;> exact hprovide

theorem hold_keeps_interpreter {e : Failure} (h : hold key others s = (.error e, t)) :
    e.losesInterpreter = false := by
  cases hr : s.sessions.lookup key with
  | none =>
      rw [hold_of_none hr] at h
      rw [← Except.error.inj (Prod.mk.inj h).1]
      rfl
  | some r =>
      cases hx : s.records[r]? with
      | none =>
          have hfail : hold key others s = (.error (.other "KeyError"), s) := by
            simp [hold, bind_apply, get, find?, hr, record, Sandbox.need, hx]
          rw [← Except.error.inj (Prod.mk.inj (hfail.symm.trans h)).1]
          rfl
      | some y =>
          cases hl : y.locked with
          | true =>
              rw [hold_of_locked hr hx hl] at h
              rw [← Except.error.inj (Prod.mk.inj h).1]
              rfl
          | false =>
              rw [does_hold hr hx hl] at h
              cases (Prod.mk.inj h).1

theorem session_of_lost {α : Type} {use : Nat → Op α} (hs : s.Sane) (hothers : others.Stepwise)
    (huse : ∀ h, (use h).Stepwise) {e : Failure}
    (h : holding key use others s = (.error e, t)) (hlost : e.losesInterpreter = true) :
    find? t key = none := by
  rcases hhold : hold key others s with ⟨e' | r, u⟩
  · rw [holding, bind_apply, hhold] at h
    obtain rfl := Except.error.inj (Prod.mk.inj h).1
    exact absurd ((hold_keeps_interpreter hhold).symm.trans hlost) Bool.false_ne_true
  obtain ⟨y, hr, hy, -, rfl⟩ := hold_eq_ok hhold
  have hheld : (held s r).records[r]? = some { y with state := .busy, locked := true } :=
    Table.getElem?_modify_eq_some.mpr ⟨y, hy, by rw [if_pos rfl]⟩
  have hsteps := huse y.handle hothers (held s r) (sane_held hs r)
  rcases hused : use y.handle others (held s r) with ⟨e' | a, v⟩ <;> rw [hused] at hsteps
  · rw [holding_eq_error hhold hheld hused] at h
    cases hhow : departure e' with
    | lost =>
        obtain ⟨w, hreset, htorn⟩ := does_reset ((hsteps.sane (sane_held hs r)).lost r) key
        have hrelease : (release key r .lost).Does v () w := (does_change _).bind hreset
        rw [hhow, hrelease.step] at h
        obtain ⟨-, rfl⟩ := fail_eq_error h
        rw [find?, htorn.sessions]
        exact Assoc.lookup_drop_self _ _
    | normal | failed =>
        rw [hhow] at h
        obtain rfl : e = e' := (Except.error.inj (Prod.mk.inj h).1).symm
        cases hhow.symm.trans (departure_eq_lost.mpr hlost)
  · rw [holding_eq_ok hhold hheld hused] at h
    cases (Prod.mk.inj h).1

end Registry

namespace Execution

theorem status_of_outcomeOf {r : Request} {fields : List (String × Json)} {ms : Int} {o : Outcome}
    (h : outcomeOf r fields ms = .ok o) : o.status ≠ .timeout := by
  unfold outcomeOf at h
  dsimp only at h
  split at h
  · rw [(checked_eq_ok h).1]
    exact nofun
  · split at h
    · rw [(checked_eq_ok h).1]
      exact nofun
    · split at h
      · rename_i error _
        rcases hmessage : describe error r.source.prependLines with e | message <;>
          rw [hmessage] at h
        · nomatch h
        · rw [(checked_eq_ok h).1]
          exact nofun
      · nomatch h

theorem status_of_settle {consumed : Int → Op Unit} {r : Request} {started : Int} {reply : Json}
    {o : Outcome} (h : settle consumed r key started reply others s = (.ok o, t)) :
    o.status ≠ .timeout := by
  cases reply with
  | obj fields =>
      obtain ⟨n, s₁, -, h⟩ := bind_eq_ok.mp h
      obtain ⟨_, s₂, -, h⟩ := bind_eq_ok.mp h
      obtain ⟨ms, s₃, -, h⟩ := bind_eq_ok.mp h
      obtain ⟨o', s₄, houtcome, h⟩ := bind_eq_ok.mp h
      obtain ⟨_, s₅, -, h⟩ := bind_eq_ok.mp h
      obtain rfl := Except.ok.inj (Prod.mk.inj h).1
      rcases hmade : outcomeOf r fields ms with e | o'' <;> rw [hmade] at houtcome
      · nomatch (Prod.mk.inj houtcome).1
      · rw [← Except.ok.inj (Prod.mk.inj houtcome).1]
        exact status_of_outcomeOf hmade
  | _ => nomatch (Prod.mk.inj h).1

theorem session_of_timeout {consumed : Int → Op Unit} {r : Request} (hs : s.Sane)
    (hothers : others.Stepwise) (hkey : r.key ≠ "") {o : Outcome}
    (h : execute Contexts.onSweep consumed r others s = (.ok o, t)) (hstatus : o.status = .timeout)
    (hlocal : o.backend = "local") : Registry.find? t r.key = none := by
  have hgoes := Registry.goes_acquire (some r.key) others s hs
  rw [execute, bind_apply, Op.outcome] at h
  rcases hacquire : Registry.acquire Contexts.onSweep (some r.key) others s with ⟨e | key, u⟩ <;>
    rw [hacquire] at h hgoes <;> dsimp only at h
  · obtain ⟨remote, u', hremote, h⟩ := bind_eq_ok.mp h
    obtain ⟨-, rfl⟩ := view_eq_ok hremote
    cases remote with
    | none => cases (Prod.mk.inj h).1
    | some remote =>
        dsimp only at h
        split at h
        · obtain ⟨started, _, -, h⟩ := bind_eq_ok.mp h
          obtain ⟨maxWait, _, -, h⟩ := bind_eq_ok.mp h
          exact absurd ((backend_executeRemote h).symm.trans hlocal) (by decide)
        · cases (Prod.mk.inj h).1
  · obtain rfl := Registry.acquire_eq_ok hkey hacquire
    rcases hheld : Registry.holding r.key (fun h => Interpreter.execute h r.body r.timeout) others u
      with ⟨e | reply, v⟩
    · cases hlost : e.losesInterpreter with
      | false =>
          rw [executeLocal_eq_error hheld hlost] at h
          cases (Prod.mk.inj h).1
      | true =>
          rw [executeLocal_eq_lost hheld hlost rfl] at h
          obtain ⟨-, rfl⟩ := Prod.mk.inj h
          exact Registry.session_of_lost (hgoes.sane hs) hothers
            (fun h => (Op.pervades_requests.post h _ _ _).stepwise) hheld hlost
    · rw [executeLocal_eq_settle hheld] at h
      exact absurd hstatus (status_of_settle h)

end Execution

namespace Contexts

theorem Embarks.key_eq {q : Execution.Request} (h : Embarks c s (.ok (i, q)) t) (hs : s.Sane) :
    q.key = runKey c := by
  cases h with
  | begun _ _ hembarked => exact hembarked.key
  | again hc hx _ hembarked =>
      obtain ⟨y, hy, hkey, -⟩ := hs.context hc
      obtain rfl := Option.some.inj (hx.symm.trans hy)
      exact hembarked.key.trans hkey

/-- A submission whose time is up at the own interpreter leaves no session for its context. -/
theorem session_of_timeout (hs : s.Sane) (hothers : others.Stepwise) {source : Source}
    {prior : List Json} {newest : Option Json} {o : Outcome}
    (h : submit c source prior newest others s = (.ok o, t)) (hstatus : o.status = .timeout)
    (hlocal : o.backend = "local") : Registry.find? t (runKey c) = none := by
  obtain ⟨res, u, hembarks, hrest⟩ := embark_embarks hs c source prior newest
  obtain ⟨hembark, hsubmit⟩ := hrest others
  rw [hsubmit] at h
  cases res with
  | error e => nomatch (Prod.mk.inj h).1
  | ok taken =>
      obtain ⟨i, q⟩ := taken
      have hkey := hembarks.key_eq hs
      have hu : u.Sane := (hembarks.moves (a := ⟨s, [], []⟩) hs).sane hs
      have hconclude : Run.conclude i q newest others u = (.ok o, t) := h
      rcases hundergo : Run.undergo i q newest others u with ⟨_, v⟩
      rw [Run.conclude_eq, hundergo] at hconclude
      obtain ⟨rfl, rfl⟩ := Prod.mk.inj hconclude
      obtain ⟨o', w, hexecute, hnoted⟩ := bind_eq_ok.mp hundergo
      obtain ⟨ho, rfl⟩ := Prod.mk.inj hnoted
      obtain rfl : o'.echoing newest = o := Except.ok.inj ho
      have hsame : (o'.echoing newest).status = o'.status ∧
          (o'.echoing newest).backend = o'.backend := by
        cases newest with
        | none => exact ⟨rfl, rfl⟩
        | some value => exact ⟨rfl, rfl⟩
      have hnone := Execution.session_of_timeout hu hothers (hkey ▸ runKey_ne_empty c) hexecute
        (hsame.1.symm.trans hstatus) (hsame.2.symm.trans hlocal)
      rw [hkey] at hnone
      exact hnone

end Contexts

/-- What becomes of the run of a context that is not in flight. -/
structure Contexts.Lapses (c : String) (s : Sandbox) : Prop where
  /-- At the next call for any session it is forgotten exactly when the session that goes with its
  context is registered and idle. -/
  forgotten_iff {i : Nat} {x : RunInfo} : Rests c i x s → ∀ (asked : Option String) others,
    Forgotten c x.runId (Registry.acquire onSweep asked others s).2 ↔
      ∃ key r y, (key = runKey c ∨ key = "run" ∧ c = "") ∧ Registry.find? s key = some r ∧
        s.records[r]? = some y ∧ Registry.isIdle s y = true
  /-- Without such a session it is there for ever, whatever other sessions are asked for. -/
  stays {i : Nat} {x : RunInfo} : Rests c i x s → Registry.Unattended c s → ∀ others later,
    (∀ e ∈ later, ∀ key, e.2 = some key → splitKey key ≠ ("run", c)) →
      Rests c i x (Registry.askAll others later s)
  /-- A submission whose time is up at the own interpreter leaves no such session. -/
  timeout {source : Source} {prior : List Json} {newest : Option Json} {others : Interrupts}
    {o : Outcome} {t : Sandbox} : others.Stepwise →
      submit c source prior newest others s = (.ok o, t) → o.status = .timeout →
      o.backend = "local" → c ≠ "" → Registry.Unattended c t

namespace Registry

open Contexts

theorem rests_askAll (hs : s.Sane) (hrests : Rests c i x s) (hnone : Unattended c s)
    (others : Interrupts) {later : List (Int × Option String)}
    (hlater : ∀ e ∈ later, ∀ key, e.2 = some key → splitKey key ≠ ("run", c)) :
    Rests c i x (askAll others later s) := by
  induction later generalizing s with
  | nil => exact hrests
  | cons e rest ih =>
      have hlater' : (s.later e.1).Sane := (Drifts.later s e.1).sane hs
      obtain ⟨ht, hrests', hnone'⟩ := acquire_unattended hlater' { hrests with } hnone
        (hlater e List.mem_cons_self) others
      exact ih ht hrests' hnone' fun a ha => hlater a (List.mem_cons_of_mem e ha)

/-- That an idle session of a context is among those that are registered. -/
theorem exists_expires_iff (hkeys : (s.sessions.map (·.1)).Nodup) :
    (∃ e ∈ s.sessions, Expires c s e) ↔
      ∃ key r y, (key = runKey c ∨ key = "run" ∧ c = "") ∧ find? s key = some r ∧
        s.records[r]? = some y ∧ isIdle s y = true := by
  constructor
  · rintro ⟨e, he, hkey, y, hy, hidle⟩
    exact ⟨e.1, e.2, y, splitKey_eq_run_iff.mp hkey, Assoc.lookup_of_mem hkeys he, hy, hidle⟩
  · rintro ⟨key, r, y, hkey, hr, hy, hidle⟩
    have hlisted : (key, r) ∈ s.sessions := by
      obtain ⟨before, after, hsessions, -⟩ := List.lookup_eq_some_iff.mp hr
      rw [hsessions]
      exact List.mem_append_right _ List.mem_cons_self
    exact ⟨(key, r), hlisted, splitKey_eq_run_iff.mpr hkey, y, hy, hidle⟩

end Registry

/-- Whatever clients have done, the run of a context is forgotten at the next call for a session
exactly when its own session is registered and idle. When an attempt has lost the session, the run
is not forgotten at all. -/
theorem Sandbox.Fresh.lapses (hs : s.Fresh) (hsteps : Steps ⟨s, [], []⟩ b) (c : String) :
    Contexts.Lapses c b.box := by
  have hsane : s.Sane := hs.sound.toSane
  have hmoves := hsteps.moves hsane
  have hb := hmoves.sane hsane
  have hkeys := (hmoves.ordered hsane hs.ordered).keys
  refine ⟨fun {i x} hrests asked others => ?_, fun hrests hnone others later hlater => ?_,
    fun {_ _ _ others o t} hothers hsubmit hstatus hlocal hc key hkey => ?_⟩
  · obtain ⟨hgone, hthere⟩ := Registry.acquire_run hb hrests asked others
    rw [← Registry.exists_expires_iff hkeys]
    refine ⟨fun hforgotten => ?_, hgone⟩
    by_contra hnone
    have hrests' := hthere fun e he hexpires => hnone ⟨e, he, hexpires⟩
    exact absurd (hforgotten.run.symm.trans hrests'.context) nofun
  · exact Registry.rests_askAll hb hrests hnone others hlater
  · obtain rfl | ⟨-, hempty⟩ := Contexts.splitKey_eq_run_iff.mp hkey
    · exact Contexts.session_of_timeout hb hothers hsubmit hstatus hlocal
    · exact absurd hempty hc

/-- An attempt that hangs. -/
def Sandbox.hanging : Except Failure Outcome × Sandbox :=
  Contexts.submit "a" { code := "[\"hang\"]" } [] none (plain 0) usual

/-- An hour after its time was up, a run outlasts the call for another session, and its session is
gone. -/
theorem Sandbox.lapses_hanging : ∃ (b : Scene) (i : Nat) (x : RunInfo), Steps ⟨usual, [], []⟩ b ∧
    b.box.clock = 3600000 ∧ Contexts.Lapses "a" b.box ∧ Contexts.Rests "a" i x b.box ∧
    x.last.any (·.status = .timeout) = true ∧
    ¬ Contexts.Forgotten "a" x.runId
      (Registry.acquire Contexts.onSweep (some "other") (fun _ s => s) b.box).2 := by
  obtain ⟨hclock, hsessions, hcontext, hrun⟩ : hanging.2.clock = 0 ∧ hanging.2.sessions = [] ∧
      hanging.2.contexts.lookup "a" = some 0 ∧ hanging.2.runs[0]?.any (fun x =>
        !x.inFlight && x.last.any (·.status = .timeout)) = true := by
    decide +kernel
  obtain ⟨x, hx, hlanded⟩ := (Option.any_eq_true _ _).mp hrun
  rw [Bool.and_eq_true, Bool.not_eq_eq_eq_not, Bool.not_true] at hlanded
  obtain ⟨requests, hsteps⟩ : ∃ requests, Steps ⟨usual, [], []⟩ ⟨hanging.2, [], requests⟩ :=
    Contexts.stepwise_submit "a" { code := "[\"hang\"]" } [] none (stepwise_plain 0) usual
      fresh_usual.sound.toSane [] []
  generalize hanging.2 = t at *
  have hsteps' := hsteps.tail (.drift (a := ⟨t, [], requests⟩) (.later t 3600000))
  have hlapses := fresh_usual.lapses hsteps' "a"
  have hrests : Contexts.Rests "a" 0 x (t.later 3600000) := ⟨hcontext, hx, hlanded.1⟩
  have hlater : (t.later 3600000).clock = 3600000 := by
    rw [later, hclock]
    rfl
  refine ⟨_, 0, x, hsteps', hlater, hlapses, hrests, hlanded.2, fun hforgotten => ?_⟩
  obtain ⟨key, r, y, -, hr, -⟩ := (hlapses.forgotten_iff hrests _ _).mp hforgotten
  have hr : t.sessions.lookup key = some r := hr
  rw [hsessions] at hr
  nomatch hr

end Rerun
