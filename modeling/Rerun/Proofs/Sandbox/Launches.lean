import Mathlib.Logic.Relation
import Rerun.Proofs.Sandbox.Drifts
import Rerun.Proofs.Sandbox.Startup

/-!
What starting an interpreter does to the processes: it makes one handle and at most one process, and
whatever fails on the way, a process that ends when it is killed lives on only behind that handle
(`Sandbox.Opens`).
-/

namespace Rerun

open Sandbox Op

/-- A process that ends when it is killed, and from which those who ask whether it is up get an
answer or none, but no other failure. -/
structure ChildScript.Lawful (x : ChildScript) : Prop where
  mortal : x.stubborn = false
  polite (name message : String) : Health.fault (.protocol name message) ∉ x.health

theorem ChildScript.lawful_default : ChildScript.Lawful {} := ⟨rfl, fun _ _ => List.not_mem_nil⟩

/-- All processes are lawful, those that there are and those still to be started. -/
structure Sandbox.Lawful (s : Sandbox) : Prop where
  scripts {x : ChildScript} : x ∈ s.scripts → x.Lawful
  children {c : Nat} {y : Child} : s.children[c]? = some y → y.script.Lawful

theorem Child.Fades.lawful {y z : Child} (h : y.Fades z) (hy : y.script.Lawful) :
    z.script.Lawful where
  mortal := h.stubborn.trans hy.mortal
  polite name message hm := hy.polite name message (h.health hm)

theorem Sandbox.Lawful.fade {s t : Sandbox} (h : s.Lawful) (hscripts : t.scripts = s.scripts)
    (hfade : Process.Fade s.children t.children) : t.Lawful where
  scripts hx := h.scripts (hscripts ▸ hx)
  children hz := by
    obtain ⟨y, hy, hyz⟩ := hfade hz
    exact hyz.lawful (h.children hy)

theorem Process.not_alive_ended {y : Child} (h : y.script.Lawful) : (ended y).alive = false := by
  simp [ended, h.mortal]

variable {s t : Sandbox}

namespace Interpreter

variable {h c : Nat} {x : Handle}

/-- A process that is waited for, after a while. It is still behind its handle; or it was given up,
and then waiting has failed. -/
structure Waited (h c : Nat) (s : Sandbox) (up : Bool) (t : Sandbox) : Prop where
  tables : s.SameTables t
  scripts : t.scripts = s.scripts
  children : Process.Fade s.children t.children
  outcome : t.handles = s.handles ∧ (s.Lawful → up = true) ∨
    t.handles = s.handles.modify h (fun x => { x with child := none }) ∧
      (s.Lawful → ∀ z, t.children[c]? = some z → z.alive = false) ∧ up = false

theorem waited_reset {cs : List Child} (hc : x.child = some c)
    (hfade : Process.Fade s.children cs) :
    Waited h c s false { s with
      children := Process.ending cs x.child
      handles := s.handles.modify h fun x => { x with child := none } } where
  tables := { SameTables.refl s with }
  scripts := rfl
  children := hfade.trans (.ending _)
  outcome := by
    refine .inr ⟨rfl, fun hl z hz => ?_, rfl⟩
    rw [hc] at hz
    obtain ⟨y, hy, rfl⟩ := Table.getElem?_modify_eq_some.mp hz
    obtain ⟨w, hw, hwy⟩ := hfade hy
    rw [if_pos rfl]
    exact Process.not_alive_ended (hwy.lawful (hl.children hw))

/-- An answer that is none of the failures that nobody expects. -/
def Polite (a : Health) : Prop := ∀ name message, a ≠ .fault (.protocol name message)

theorem polite_nextHealth {y : Child} (h : y.script.Lawful) : Polite (Process.nextHealth y) := by
  intro name message hnext
  unfold Process.nextHealth at hnext
  cases hhealth : y.script.health with
  | nil =>
      rw [hhealth, List.headD_nil] at hnext
      split at hnext
      · exact absurd hnext nofun
      · rw [Process.refusal] at hnext
        exact absurd hnext nofun
  | cons a rest =>
      rw [hhealth, List.headD_cons] at hnext
      refine h.polite name message ?_
      rw [hhealth, ← hnext]
      exact List.mem_cons_self

theorem askUp_waited (hs : s.Sane) (hx : s.handles[h]? = some x) (hc : x.child = some c)
    (deadline : Binary64) (others : Interrupts) : ∃ result t,
      askUp h c deadline others s = (result, t) ∧ t.Sane ∧ Waited h c s result.isOk t ∧
        (s.Lawful → ∀ a, result = .ok a → Polite a) := by
  obtain ⟨y, hy, -⟩ := hs.handle hx hc
  have hhandle : handle h others s = (.ok x, s) := does_need hx others
  cases hlt : (Binary64.ofMillis s.clock).lt deadline with
  | false =>
      obtain ⟨hreset, hs', -⟩ := does_reset hs hx
      refine ⟨.error (.startTimeout x.startupTimeout), _, ?_, hs', waited_reset hc (.refl _),
        fun _ _ h => absurd h (by simp)⟩
      simp [askUp, bind_apply, hhandle, now, Op.view, hlt, hreset others, Op.fail]
  | true =>
      have hpoll := Process.does_poll hy others
      have hpassed := (Process.passes_poll c).apply others s
      rw [hpoll] at hpassed
      have hs₁ := hpassed.sane hs
      have hfade := hpassed.children
      cases halive : Process.aliveAt y with
      | false =>
          rw [halive] at hpoll hs₁ hfade
          obtain ⟨hreset, hs', -⟩ := does_reset hs₁ hx
          let log := (s.folders.processLogText x.folder).toList
          refine ⟨.error (.exitedEarly (String.ofList (log.drop (log.length - 2000)))), _, ?_, hs',
            waited_reset hc hfade, fun _ _ h => absurd h (by simp)⟩
          simp [askUp, bind_apply, hhandle, now, Op.view, hlt, hpoll, hreset others, Op.fail,
            logTail, log]
      | true =>
          rw [halive] at hpoll hs₁ hfade
          have hy₁ : (s.children.modify c fun z =>
              { z with polls := z.polls + 1, alive := true })[c]? =
              some { y with polls := y.polls + 1, alive := true } :=
            Table.getElem?_modify_eq_some.mpr ⟨y, hy, by rw [if_pos rfl]⟩
          obtain ⟨cs, hhealth, hs₂, -, -⟩ := Process.does_health hs₁ hy₁
          have hpassed := (Process.passes_health c).apply others { s with
            children := s.children.modify c fun z =>
              { z with polls := z.polls + 1, alive := true } }
          rw [hhealth others] at hpassed
          refine ⟨.ok (Process.nextHealth { y with polls := y.polls + 1, alive := true }),
            { s with children := cs }, ?_, hs₂, ⟨{ SameTables.refl s with }, rfl,
              hfade.trans hpassed.children, .inl ⟨rfl, fun _ => rfl⟩⟩, fun hl a ha => ?_⟩
          · simp [askUp, bind_apply, hhandle, now, Op.view, hlt, hpoll, hhealth others]
          · have hlawful : y.script.Lawful := hl.children hy
            rw [← Except.ok.inj ha]
            exact polite_nextHealth hlawful

theorem polite_verdict {a : Health} (h : Polite a) {said : Except Failure Unit}
    (hsaid : verdict a = some said) : said = .ok () := by
  cases a with
  | status n =>
      rw [verdict] at hsaid
      split at hsaid
      · exact (Option.some.inj hsaid).symm
      · exact absurd hsaid nofun
  | fault f =>
      cases f with
      | timeout m => exact absurd hsaid nofun
      | transport m => exact absurd hsaid nofun
      | protocol name m => exact absurd rfl (h name m)

namespace Waited

variable {u : Sandbox}

theorem handles (hw : Waited h c s true t) : t.handles = s.handles := by
  obtain ⟨hhandles, -⟩ | ⟨-, -, hup⟩ := hw.outcome
  · exact hhandles
  · exact absurd hup nofun

theorem lawful {up : Bool} (hw : Waited h c s up t) (hl : s.Lawful) : t.Lawful :=
  hl.fade hw.scripts hw.children

theorem trans {up : Bool} (hw : Waited h c s true t) (hw' : Waited h c t up u) :
    Waited h c s up u where
  tables := hw.tables.trans hw'.tables
  scripts := hw'.scripts.trans hw.scripts
  children := hw.children.trans hw'.children
  outcome := by
    rw [← hw.handles]
    exact hw'.outcome.imp (fun h => ⟨h.1, h.2 ∘ hw.lawful⟩) fun h => ⟨h.1, h.2.1 ∘ hw.lawful, h.2.2⟩

theorem said (hw : Waited h c s true t) {a : Health} {said : Except Failure Unit}
    (hpolite : s.Lawful → Polite a) (hsaid : verdict a = some said) : Waited h c s said.isOk t :=
  { hw with
    outcome := by
      refine .inl ⟨hw.handles, fun hl => ?_⟩
      rw [polite_verdict (hpolite hl) hsaid]
      rfl }

end Waited

theorem awaitUp_waited (hs : s.Sane) (hx : s.handles[h]? = some x) (hc : x.child = some c)
    (deadline : Binary64) (pending : List Health) (others : Interrupts) : ∃ result t,
      awaitUp h c deadline pending others s = (result, t) ∧ t.Sane ∧
        Waited h c s result.isOk t := by
  induction pending generalizing s with
  | nil =>
      obtain ⟨asked, t, hask, ht, hw, hpolite⟩ := askUp_waited hs hx hc deadline others
      rw [awaitUp, bind_apply, hask]
      cases asked with
      | error e => exact ⟨.error e, t, rfl, ht, hw⟩
      | ok a =>
          dsimp only
          cases hsaid : verdict a with
          | none => exact ⟨.ok (), t, rfl, ht, hw⟩
          | some said =>
              refine ⟨said, t, ?_, ht, hw.said (fun hl => hpolite hl a rfl) hsaid⟩
              cases said <;> rfl
  | cons p pending ih =>
      obtain ⟨asked, t, hask, ht, hw, hpolite⟩ := askUp_waited hs hx hc deadline others
      rw [awaitUp, bind_apply, hask]
      cases asked with
      | error e => exact ⟨.error e, t, rfl, ht, hw⟩
      | ok a =>
          dsimp only
          cases hsaid : verdict a with
          | some said =>
              refine ⟨said, t, ?_, ht, hw.said (fun hl => hpolite hl a rfl) hsaid⟩
              cases said <;> rfl
          | none =>
              have hx' : t.handles[h]? = some x := by
                rw [hw.handles]
                exact hx
              -- Only the clock has moved on when it is asked again.
              obtain ⟨result, u, hagain, hu, hw'⟩ := ih (s := { t with
                clock := t.clock + (Binary64.ofDecimal false 5 (-2)).toMillis }) { ht with } hx'
              refine ⟨result, u, hagain, hu, hw.trans { hw' with tables := ?_, outcome := ?_ }⟩
              · exact { hw'.tables with }
              · exact hw'.outcome.imp (fun h => ⟨h.1, fun hl => h.2 { hl with }⟩)
                  fun h => ⟨h.1, fun hl => h.2.1 { hl with }, h.2.2⟩

end Interpreter

/-! ### New handles -/

theorem Table.modify_concat {α : Type} (xs : List α) (x : α) (f : α → α) :
    (xs ++ [x]).modify xs.length f = xs ++ [f x] := by
  induction xs with
  | nil => rfl
  | cons a xs ih => exact congrArg (a :: ·) ih

/-- There is one handle more, and behind it at most a new process; whatever else lives was alive
before. -/
structure Sandbox.Opens (s t : Sandbox) (x : Handle) : Prop where
  sane : t.Sane
  tables : s.SameTables t
  handles : t.handles = s.handles ++ [x]
  later {c : Nat} : x.child = some c → s.children.length ≤ c
  alive {c : Nat} {z : Child} : s.Lawful → t.children[c]? = some z → z.alive = true →
    x.child = some c ∨ ∃ y, s.children[c]? = some y ∧ y.alive = true
  lawful : s.Lawful → t.Lawful

theorem Sandbox.Opens.reset {x : Handle} (h : s.Opens t x) {u : Sandbox} (hu : u.Sane)
    (heq : u = { t with
      children := Process.ending t.children x.child
      handles := t.handles.modify s.handles.length fun x => { x with child := none } }) :
    s.Opens u { x with child := none } where
  sane := hu
  tables := by
    rw [heq]
    exact { h.tables with }
  handles := by
    rw [heq]
    show t.handles.modify _ _ = _
    rw [h.handles, Table.modify_concat]
  later := nofun
  alive {c z} hl hz halive := by
    rw [heq] at hz
    obtain ⟨y, hy, hyz⟩ := Process.Fade.ending x.child hz
    obtain hc | hold := h.alive hl hy (hyz.alive halive)
    · -- The process behind the handle was ended.
      have hz : (Process.ending t.children x.child)[c]? = some z := hz
      rw [hc] at hz
      obtain ⟨w, hw, rfl⟩ := Table.getElem?_modify_eq_some.mp hz
      rw [if_pos rfl, Process.not_alive_ended ((h.lawful hl).children hw)] at halive
      exact absurd halive nofun
    · exact .inr hold
  lawful hl := by
    rw [heq]
    exact (h.lawful hl).fade rfl (.ending _)

namespace Process

theorem lawful_launched (hl : s.Lawful) (p : Path) (alive : Bool) (fs : Folders) :
    (launched s p alive fs).Lawful where
  scripts hx := hl.scripts (List.mem_of_mem_tail hx)
  children hy := by
    obtain hy | ⟨-, rfl⟩ := Table.getElem?_concat_eq_some.mp hy
    · exact hl.children hy
    · show (s.scripts.headD {}).Lawful
      cases hscripts : s.scripts with
      | nil => exact ChildScript.lawful_default
      | cons x rest =>
          refine hl.scripts ?_
          rw [hscripts]
          exact List.mem_cons_self

end Process

namespace Interpreter

theorem opens_attached (hs : s.Sane) {x : Handle} (hx : x.child = none) {fs : Folders}
    (hfs : fs.Proper) : s.Opens (attached (created s x) s.handles.length x fs) { x with
      port := some (40000 + s.children.length), child := some s.children.length } where
  sane := sane_attached (sane_created hs hx) (getElem?_created s x) hfs
  tables := { SameTables.refl s with }
  handles := by
    show ((s.handles ++ [x]).modify _ _).modify _ _ = _
    rw [Table.modify_concat, Table.modify_concat]
    rfl
  later h := Nat.le_of_eq (Option.some.inj h)
  alive {c z} hl hz halive := by
    obtain hz | ⟨hc, -⟩ := Table.getElem?_concat_eq_some.mp hz
    · exact .inr ⟨z, hz, halive⟩
    · exact .inl (congrArg some hc.symm)
  lawful hl := { Process.lawful_launched (s := readied (created s x) s.handles.length x)
    { hl with } x.folder true fs with }

theorem opens_launched (hs : s.Sane) {x : Handle} (hx : x.child = none) :
    s.Opens (Process.launched (readied (created s x) s.handles.length x) x.folder false
      (readied (created s x) s.handles.length x).folders)
      { x with port := some (40000 + s.children.length) } where
  sane := by
    have hready := sane_readied (sane_created hs hx) s.handles.length x
    exact Process.sane_launched hready x.folder false hready.metadata
  tables := { SameTables.refl s with }
  handles := by
    show (s.handles ++ [x]).modify _ _ = _
    rw [Table.modify_concat]
    rfl
  later h := absurd (hx.symm.trans h) nofun
  alive {c z} hl hz halive := by
    obtain hz | ⟨-, rfl⟩ := Table.getElem?_concat_eq_some.mp hz
    · exact .inr ⟨z, hz, halive⟩
    · exact absurd halive nofun
  lawful hl := Process.lawful_launched (s := readied (created s x) s.handles.length x)
    { hl with } x.folder false _

/-- What is left behind a new handle when its process is not waited for any longer. -/
theorem Waited.opens {u : Sandbox} {y : Handle} {up : Bool} (hw : Waited s.handles.length c u up t)
    (hopens : s.Opens u y) (hc : y.child = some c) (ht : t.Sane) :
    ∃ z, s.Opens t z ∧ z.folder = y.folder ∧ (s.Lawful → up = false → z.child = none) := by
  have htables := hopens.tables.trans hw.tables
  have hlawful (hl : s.Lawful) : t.Lawful := hw.lawful (hopens.lawful hl)
  obtain ⟨hhandles, hup⟩ | ⟨hhandles, hgone, hup⟩ := hw.outcome
  · refine ⟨y, ⟨ht, htables, hhandles.trans hopens.handles, hopens.later, ?_, hlawful⟩, rfl, ?_⟩
    · intro d z hl hz halive
      obtain ⟨w, hw, hwz⟩ := hw.children hz
      exact hopens.alive hl hw (hwz.alive halive)
    · exact fun hl hdown => absurd ((hup (hopens.lawful hl)).symm.trans hdown) nofun
  · refine ⟨{ y with child := none }, ⟨ht, htables, ?_, nofun, ?_, hlawful⟩, rfl, fun _ _ => rfl⟩
    · rw [hhandles, hopens.handles, Table.modify_concat]
    · intro d z hl hz halive
      obtain ⟨w, hw, hwz⟩ := hw.children hz
      obtain hd | hold := hopens.alive hl hw (hwz.alive halive)
      · obtain rfl := Option.some.inj (hc.symm.trans hd)
        exact absurd (halive.symm.trans (hgone (hopens.lawful hl) z hz)) nofun
      · exact .inr hold

/-- Starting an interpreter behind a new handle. When it fails, the handle lets go of its process,
unless that one is unlawful. -/
theorem start_opens (hs : s.Sane) (x : Handle) (hx : x.child = none) (others : Interrupts) :
    ∃ result t y, start s.handles.length others (created s x) = (result, t) ∧ s.Opens t y ∧
      y.folder = x.folder ∧ (s.Lawful → result.isOk = false → y.child = none) := by
  have hs₁ := sane_created hs hx
  have hx₁ := getElem?_created s x
  cases hmake : x.folder.isMakeable with
  | false =>
      refine ⟨.error (.other "OSError"), created s x, x, ?_, ?_, rfl, fun _ _ => hx⟩
      · have hhandle : (handle s.handles.length).Does (created s x) x (created s x) := does_need hx₁
        rw [start, hhandle.step, hmake]
        rfl
      · exact {
          sane := hs₁
          tables := { SameTables.refl s with }
          handles := rfl
          later := fun h => absurd (hx.symm.trans h) (Option.some_ne_none _).symm
          alive := fun _ hz halive => .inr ⟨_, hz, halive⟩
          lawful := fun hl => { hl with } }
  | true =>
      rw [start_eq hx₁ hmake]
      cases hspawn : (s.scripts.headD {}).spawnFailure with
      | some reason =>
          have hopens := opens_launched hs hx
          have hlaunch := Process.does_launch_error (readied (created s x) s.handles.length x)
            x.folder hspawn
          obtain ⟨hreset, hsane, -⟩ := does_reset hopens.sane
            (h := s.handles.length) (by rw [hopens.handles]; exact List.getElem?_concat_length)
          exact ⟨_, _, _, (hlaunch.step _ others).trans (hreset.step _ others),
            hopens.reset hsane rfl, rfl, fun _ _ => rfl⟩
      | none =>
          obtain ⟨fs, hlaunch, hproper, -⟩ := Process.does_launch
            (readied (created s x) s.handles.length x) x.folder hspawn
          have hopens := opens_attached hs hx
            (hproper (sane_readied hs₁ s.handles.length x).metadata)
          obtain ⟨result, t, hawait, ht, hw⟩ := awaitUp_waited hopens.sane
            (getElem?_attached_handles hx₁ fs) rfl
            ((Binary64.ofMillis s.clock).add x.startupTimeout) (s.scripts.headD {}).health others
          obtain ⟨z, hz, hfolder, hnone⟩ := hw.opens hopens rfl ht
          refine ⟨result, t, z, (hlaunch.step _ others).trans ?_, hz, hfolder, hnone⟩
          exact (attach_eq _ _ _ _ _ _).trans hawait

end Interpreter

/-- A start that came to nothing. -/
def Sandbox.Fails (s t : Sandbox) : Prop := ∃ x, s.Opens t x ∧ (s.Lawful → x.child = none)

/-- A new record, which is not registered, on an interpreter that was started for it. -/
structure Sandbox.Adds (s t : Sandbox) (p : Path) : Prop where
  sane : t.Sane
  opens : ∃ u x y, s.Opens u x ∧ t = { u with records := u.records ++ [y] } ∧
    y.handle = s.handles.length ∧ y.folder = p ∧ y.state = .ready ∧ y.locked = false

namespace Registry

/-- Starting a session: so many starts that come to nothing, and then one that adds a record, unless
none does. -/
theorem startTwice_tries (hs : s.Sane) (folder : Path) (timeout : Binary64) (key : String)
    (attempts : Nat) (last : Failure) (others : Interrupts) : ∃ result t u,
      startTwice folder timeout key attempts last others s = (result, t) ∧ u.Sane ∧
      Relation.ReflTransGen Fails s u ∧
      ((∃ e, result = .error e) ∧ t = u ∨ result = .ok u.records.length ∧ u.Adds t folder) := by
  induction attempts generalizing s last with
  | zero => exact ⟨_, s, s, rfl, hs, .refl, .inl ⟨⟨_, rfl⟩, rfl⟩⟩
  | succ attempts ih =>
      obtain ⟨result, t, y, hstart, hopens, hfolder, hnone⟩ :=
        Interpreter.start_opens hs { folder, startupTimeout := timeout } rfl others
      rw [startTwice_succ hstart]
      have hy : t.handles[s.handles.length]? = some y := by
        rw [hopens.handles]
        exact List.getElem?_concat_length
      cases result with
      | ok _ =>
          refine ⟨_, _, s, rfl, hs, .refl, .inr ⟨?_, ?_, t, y, _, hopens, rfl, rfl, rfl, rfl, rfl⟩⟩
          · exact congrArg (fun rs => Except.ok rs.length) hopens.tables.records
          · exact hopens.sane.addRecord (by simp) ⟨y, hy, hfolder⟩
      | error e =>
          have hfails : s.Fails t := ⟨y, hopens, fun hl => hnone hl rfl⟩
          dsimp only
          split
          · obtain ⟨hreset, hsane, -⟩ := Interpreter.does_reset hopens.sane hy
            have hfails' : s.Fails _ := ⟨_, hopens.reset hsane rfl, fun _ => rfl⟩
            obtain ⟨result, t', u, hagain, hu, htries, hends⟩ := ih hsane e
            exact ⟨result, t', u, (hreset.step _ others).trans hagain, hu,
              .head hfails' htries, hends⟩
          · exact ⟨_, t, t, rfl, hopens.sane, .single hfails, .inl ⟨⟨e, rfl⟩, rfl⟩⟩

theorem start_tries (hs : s.Sane) (key : String) (others : Interrupts) : ∃ result t u,
      start key others s = (result, t) ∧ u.Sane ∧ Relation.ReflTransGen Fails s u ∧
      ((∃ e, result = .error e) ∧ t = u ∨ result = .ok u.records.length ∧
        ∃ p, folderOf s.setup key = .ok p ∧ u.Adds t p) := by
  rw [start, (does_view _).step]
  cases hp : folderOf s.setup key with
  | error e => exact ⟨_, s, s, rfl, hs, .refl, .inl ⟨⟨e, rfl⟩, rfl⟩⟩
  | ok p =>
      obtain ⟨result, t, u, hstart, hu, htries, hends⟩ :=
        startTwice_tries hs p s.setup.startupTimeout key 2 .notInitialized others
      exact ⟨result, t, u, hstart, hu, htries, hends.imp_right fun h => ⟨h.1, p, rfl, h.2⟩⟩

end Registry

end Rerun
