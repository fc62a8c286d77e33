import Rerun.Proofs.Sandbox.Scenes

/-!
What clients can bring about (`Steps`): they get sessions, hold them and let them go, take them
down, note executions, and have attempts made at runs, in any order, each of them also while others
hold a session or have a run in flight. Every step consists of moves.
-/

namespace Rerun

open Sandbox Op

variable {s t u : Sandbox} {a b : Scene} {others : Interrupts}

theorem Op.Goes.touch (r : Nat) {f : Record → Record}
    (hf : ∀ x, (f x).handle = x.handle ∧ (f x).folder = x.folder ∧ (f x).state = x.state ∧
      (f x).locked = x.locked) : Goes (Sandbox.setRecord r f) :=
  fun _ _ _ _ _ => .single (.touch r hf)

/-! ### Contexts -/

namespace Contexts

theorem goes_forgetRun (c : String) : (forgetRun c).Goes := by
  intro others s hs
  cases hc : s.contexts.lookup c with
  | none =>
      have hstill : forgetRun c others s = (.ok (), s) := by
        simp [forgetRun, bind_apply, Op.view, run?, hc]
      rw [hstill]
      exact .refl s
  | some i =>
      obtain ⟨x, hx, -, howner, -⟩ := hs.context hc
      have hrun : (Sandbox.run i).Does s x s := does_need hx
      cases hf : x.inFlight with
      | true =>
          have hstill : forgetRun c others s = (.ok (), s) := by
            simp [forgetRun, bind_apply, Op.view, run?, hc, hrun others, hf]
          rw [hstill]
          exact .refl s
      | false =>
          have hforget : forgetRun c others s = (.ok (), forgotten s c x) := by
            simp [forgetRun, bind_apply, Op.view, run?, hc, hrun others, hf, Op.change,
              Seeds.forget, howner, Seeds.setTable, forgotten]
          rw [hforget]
          exact fun _ _ => .single (.forget hc hx hf)

theorem goes_onSweep (key : String) : (onSweep key).Goes :=
  Goes.chains.onSweep (fun c _ => goes_forgetRun c)
    (fun n => Goes.chains.forgetChallenge (.of_drifts (.change fun s => .dropChallenge s n))
      fun i => .of_drifts (.setChallenge i fun _ => rfl))
    (.of_passes (.change fun s =>
      { Sandbox.Passes.refl s with tables := { SameTables.refl s with } }))

theorem goes_leave (c : String) : (leave c).Goes := by
  intro others s hs
  cases hc : s.contexts.lookup c with
  | none => exact Op.Goes.of_does (does_leave_none hc) (.refl s)
  | some i =>
      obtain ⟨x, hx, -⟩ := hs.context hc
      obtain ⟨t, hleave, htorn⟩ := does_leave_some hs hc hx
      have hforsake : s.Goes (forsaken s c i x) :=
        fun scopes requests => .single (.forsake (a := ⟨s, scopes, requests⟩) hc hx)
      exact Op.Goes.of_does hleave (hforsake.trans (.of_tornDown htorn))

end Contexts

/-! ### Sessions -/

namespace Registry

theorem goes_reset (key : String) : (reset key).Goes := by
  intro others s hs
  obtain ⟨t, hreset, htorn⟩ := does_reset hs key
  exact Op.Goes.of_does hreset (.of_tornDown htorn)

theorem goes_sweep : (sweep Contexts.onSweep).Goes :=
  Goes.chains.sweep goes_reset Contexts.goes_onSweep

theorem goes_usable (r : Nat) : (usable r).Goes :=
  Goes.chains.usable (fun h => .of_passes (Interpreter.passes_probe h))
    fun _ => .touch r fun _ => ⟨rfl, rfl, rfl, rfl⟩

theorem goes_note (key : String) (entry : Json) : (note key entry).Goes :=
  Goes.chains.note (fun r => .touch r fun _ => ⟨rfl, rfl, rfl, rfl⟩)
    (fun _ => .of_passes (passes_writeJournal _ _)) (fun _ => .of_passes (passes_writeMetadata _ _))
    entry

theorem goes_resetAll : resetAll.Goes := Goes.chains.resetAll goes_reset

theorem sameTables_of_tries (h : Relation.ReflTransGen Fails s t) : s.SameTables t := by
  induction h with
  | refl => exact .refl s
  | tail _ hfails ih =>
      obtain ⟨x, hopens, -⟩ := hfails
      exact ih.trans hopens.tables

theorem goes_enter (hs : s.Sane) {key : String} (hkey : key ≠ "")
    (hnone : s.sessions.lookup key = none) (others : Interrupts) :
    s.Goes (enter key others s).2 := by
  have hregister : s.Goes (register key others s).2 := by
    obtain ⟨result, t, u, hstart, hu, htries, ⟨⟨e, rfl⟩, rfl⟩ | ⟨rfl, p, hp, hadds⟩⟩ :=
      start_tries hs key others
    · rw [register, bind_apply, hstart]
      exact .of_tries htries
    · rw [register, bind_apply, hstart]
      have hsame := sameTables_of_tries htries
      rw [← hsame.sessions] at hnone
      rw [← hsame.setup] at hp
      exact (Sandbox.Goes.of_tries htries).trans fun _ _ => .single (.enroll hkey hnone hp hadds)
  refine Op.Goes.bind_at hregister fun r t ht => ?_
  have ht' : t.Sane := by
    rw [ht] at hregister
    exact hregister.sane hs
  refine Op.Goes.bind (.need _) (fun info => .bind (.view _) fun now => ?_) others t ht'
  exact .bind (.of_passes (passes_writeMetadata _ _)) fun _ => .of_passes (passes_writeJournal _ _)

theorem keyFor_ne_empty {key : Option String} {k : String}
    (h : keyFor key others s = (.ok k, t)) : k ≠ "" := by
  have hanonymous : keyFor.anonymous others s = (.ok k, t) → k ≠ "" := by
    intro h hk
    obtain ⟨hk', -⟩ := Prod.mk.inj h
    have hlist := congrArg String.toList ((Except.ok.inj hk').trans hk)
    simp [String.toList_append] at hlist
  unfold keyFor at h
  split at h
  · split at h
    · exact hanonymous h
    · obtain ⟨hk, -⟩ := Prod.mk.inj h
      exact Except.ok.inj hk ▸ ‹_›
  · exact hanonymous h

theorem goes_provide (hs : s.Sane) {key : String} (hkey : key ≠ "") (others : Interrupts) :
    s.Goes (provide key others s).2 := by
  rw [provide, (does_view _).step]
  cases hr : find? s key with
  | none => exact goes_enter hs hkey hr others
  | some r =>
      have husable := goes_usable r others s hs
      refine Op.Goes.bind_at husable fun use t ht => ?_
      have ht' : t.Sane := by
        rw [ht] at husable
        exact husable.sane hs
      split
      · exact .refl t
      · -- What cannot be used is taken down, and the key is free for another session.
        obtain ⟨u, hreset, htorn⟩ := does_reset ht' key
        have hnone : u.sessions.lookup key = none := by
          rw [htorn.tables]
          exact Assoc.lookup_drop_self _ _
        rw [hreset.step]
        exact (Sandbox.Goes.of_tornDown htorn).trans (goes_enter htorn.sane hkey hnone others)

theorem goes_acquire (key : Option String) : (acquire Contexts.onSweep key).Goes := by
  intro others s hs
  have hsweep := goes_sweep others s hs
  refine Op.Goes.bind_at hsweep fun _ t ht => ?_
  have ht' : t.Sane := by
    rw [ht] at hsweep
    exact hsweep.sane hs
  have hkey := Op.Goes.of_drifts (drifts_keyFor key) others t ht'
  refine Op.Goes.bind_at hkey fun k u hu => ?_
  have hu' : u.Sane := by
    rw [hu] at hkey
    exact hkey.sane ht'
  exact Op.Goes.bind_at (goes_provide hu' (keyFor_ne_empty hu) others) fun _ v _ => .refl v

end Registry

theorem Contexts.goes_abandon (c : String) : (abandon c).Goes := by
  refine .bind (.view _) fun found => ?_
  split
  · exact Registry.goes_reset _
  · exact goes_leave c

/-! ### Steps -/

/-- What clients can do at once. Others have no part in it, whoever they are. -/
inductive Step : Scene → Scene → Prop
  /-- Requests, programs and the clock go on. -/
  | drift {a : Scene} {t : Sandbox} : a.box.Drifts t → Step a { a with box := t }
  | sweep (a : Scene) (others : Interrupts) :
      Step a { a with box := (Registry.sweep Contexts.onSweep others a.box).2 }
  | acquire (a : Scene) (others : Interrupts) (key : Option String) :
      Step a { a with box := (Registry.acquire Contexts.onSweep key others a.box).2 }
  | reset (a : Scene) (others : Interrupts) (key : String) :
      Step a { a with box := (Registry.reset key others a.box).2 }
  | resetAll (a : Scene) (others : Interrupts) :
      Step a { a with box := (Registry.resetAll others a.box).2 }
  | record (a : Scene) (others : Interrupts) (key : String) (entry : Json) :
      Step a { a with box := (Registry.note key entry others a.box).2 }
  /-- A scope is opened on a session. -/
  | enter {a : Scene} {others : Interrupts} {key : String} {r : Nat} {t : Sandbox} :
      Registry.hold key others a.box = (.ok r, t) →
      Step a { a with box := t, scopes := (key, r) :: a.scopes }
  /-- A scope that is open is left. -/
  | leave {a : Scene} (others : Interrupts) {key : String} {r : Nat} (how : Departure) :
      (key, r) ∈ a.scopes → Step a { a with
        box := (Registry.release key r how others a.box).2, scopes := a.scopes.erase (key, r) }
  /-- A submission takes a run for an attempt. -/
  | embark {a : Scene} {others : Interrupts} {c : String} {source : Source} {prior : List Json}
      {newest : Option Json} {i : Nat} {q : Execution.Request} {t : Sandbox} :
      Contexts.embark c source prior newest others a.box = (.ok (i, q), t) →
      Step a { a with box := t, requests := q :: a.requests }
  /-- A submission is refused. -/
  | refuse {a : Scene} {others : Interrupts} {c : String} {source : Source} {prior : List Json}
      {newest : Option Json} {e : Failure} {t : Sandbox} :
      Contexts.embark c source prior newest others a.box = (.error e, t) →
      Step a { a with box := t }
  /-- An attempt is over. -/
  | land (a : Scene) (i : Nat) : Step a { a with box := Run.landed a.box i }
  | abandon (a : Scene) (others : Interrupts) (c : String) :
      Step a { a with box := (Contexts.abandon c others a.box).2 }

/-- What clients bring about, one after the other. -/
abbrev Steps : Scene → Scene → Prop := Relation.ReflTransGen Step

namespace Registry

theorem moves_release (ha : a.box.Sane) {key : String} {r : Nat} (hscope : (key, r) ∈ a.scopes)
    (how : Departure) (others : Interrupts) : Moves a { a with
      box := (release key r how others a.box).2, scopes := a.scopes.erase (key, r) } := by
  cases how with
  | normal => exact .single (.leave (fun _ => a.box.clock) hscope)
  | failed => exact .single (.leave (·.lastUsed) hscope)
  | lost =>
      obtain ⟨t, hreset, htorn⟩ := does_reset (ha.lost r) key
      have hrelease : release key r .lost others a.box = (.ok (), t) :=
        (Op.Does.bind (does_change _) hreset) others
      rw [hrelease]
      exact .single (.lose hscope htorn)

end Registry

theorem Contexts.lookup_of_leave (hs : s.Sane) {c : String} (hleave : (leave c).Does s () t) :
    t.contexts.lookup c = none := by
  cases hc : s.contexts.lookup c with
  | none =>
      have hstill := (hleave fun _ s => s).symm.trans (does_leave_none hc fun _ s => s)
      obtain ⟨-, rfl⟩ := Prod.mk.inj hstill
      exact hc
  | some i =>
      obtain ⟨x, hx, -⟩ := hs.context hc
      obtain ⟨u, hleave', htorn⟩ := does_leave_some hs hc hx
      obtain ⟨-, rfl⟩ := Prod.mk.inj ((hleave fun _ s => s).symm.trans (hleave' fun _ s => s))
      rw [htorn.tables]
      exact Assoc.lookup_drop_self _ _

/-- A submission leaves the run before, if it does, and takes one for its attempt. -/
theorem Contexts.Embarks.moves {c : String} {res : Except Failure (Nat × Execution.Request)}
    (h : Embarks c a.box res t) (ha : a.box.Sane) : Moves a { a with
      box := t, requests := (res.toOption.map (·.2)).toList ++ a.requests } := by
  have hleft {u : Sandbox} (hleave : (leave c).Does a.box () u) : Moves a { a with box := u } := by
    have hgoes := goes_leave c (fun _ s => s) a.box ha
    rw [hleave] at hgoes
    exact hgoes a.scopes a.requests
  cases h with
  | refused e => exact .refl
  | stranded e hleave => exact hleft hleave
  | begun hleave htimeout hembarked =>
      exact (hleft hleave).tail (.begin (lookup_of_leave ha hleave) htimeout hembarked)
  | again hc hx hidle hembarked => exact .single (.again hc hx hidle hembarked)

theorem Contexts.embarks_of_eq (hs : s.Sane) {c : String} {source : Source} {prior : List Json}
    {newest : Option Json} {res : Except Failure (Nat × Execution.Request)}
    (h : embark c source prior newest others s = (res, t)) : Embarks c s res t := by
  obtain ⟨res', t', hembarks, hrest⟩ := embark_embarks hs c source prior newest
  obtain ⟨rfl, rfl⟩ := Prod.mk.inj ((hrest others).1.symm.trans h)
  exact hembarks

theorem Step.moves (h : Step a b) (ha : a.box.Sane) : Moves a b := by
  cases h with
  | drift hd => exact .single (.drift hd)
  | sweep others => exact Registry.goes_sweep others a.box ha _ _
  | acquire others key => exact Registry.goes_acquire key others a.box ha _ _
  | reset others key => exact Registry.goes_reset key others a.box ha _ _
  | resetAll others => exact Registry.goes_resetAll others a.box ha _ _
  | record others key entry => exact Registry.goes_note key entry others a.box ha _ _
  | enter hhold =>
      obtain ⟨x, hr, hx, hfree, rfl⟩ := Registry.hold_eq_ok hhold
      exact .single (.enter hr hx hfree)
  | leave others how hscope => exact Registry.moves_release ha hscope how others
  | embark hembark => exact (Contexts.embarks_of_eq ha hembark).moves ha
  | refuse hembark => exact (Contexts.embarks_of_eq ha hembark).moves ha
  | land i => exact .single (.land i)
  | abandon others c => exact Contexts.goes_abandon c others a.box ha _ _

theorem Steps.moves (h : Steps a b) (ha : a.box.Sane) : Moves a b := by
  induction h with
  | refl => exact .refl
  | tail _ hstep ih => exact ih.trans (hstep.moves (ih.sane ha))

end Rerun
