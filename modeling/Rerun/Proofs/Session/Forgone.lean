import Rerun.Proofs.Sandbox.FailedStarts
import Rerun.Proofs.Session.Obtaining

/-!
What is left when a session cannot be got because no interpreter comes up (`Registry.Forgone`). The
key is not registered and no process that was started lives on, unless it outlives being killed; the
other sessions are as they are whenever a session is asked for. But the folder that was made for the
interpreters stays: it is no session's, and taking the session of the key down does nothing.
-/

namespace Rerun

open Sandbox Op

variable {s t u : Sandbox} {b : Scene} {key : String} {r : Nat} {x : Record} {others : Interrupts}
  {h c : Nat} {e : Failure}

/-! ### Processes that are given up -/

/-- A process that is dead, unless it outlives being killed. -/
def Sandbox.Spent (s : Sandbox) (c : Nat) : Prop :=
  ∀ y, s.children[c]? = some y → y.alive = true → y.script.stubborn = true

theorem Sandbox.Spent.fade (hs : s.Spent c) (hfade : Process.Fade s.children t.children) :
    t.Spent c := by
  intro z hz halive
  obtain ⟨y, hy, hyz⟩ := hfade hz
  rw [hyz.stubborn]
  exact hs y hy (hyz.alive halive)

def Sandbox.Leads (s : Sandbox) (h c : Nat) : Prop := ∃ x, s.handles[h]? = some x ∧ x.child = some c

namespace Op

variable {α β : Type}

/-- An operation that waits for the process behind a handle: as long as it goes well the process
stays there, and if it fails because the process does not come up, the process is given up. -/
structure Awaits (h c : Nat) (x : Op α) : Prop where
  ok {others : Interrupts} {s t : Sandbox} {a : α} : s.Leads h c → x others s = (.ok a, t) →
    t.Leads h c
  error {others : Interrupts} {s t : Sandbox} {e : Failure} : s.Leads h c →
    x others s = (.error e, t) → e.kind = .initialization → t.Spent c

namespace Awaits

/-- An operation that has nothing to do with handles and does not fail for want of an
interpreter. -/
theorem of_equipped {x : Op α} (hx : x.Equipped)
    (hhandles : ∀ others s, (x others s).2.handles = s.handles) : Awaits h c x where
  ok {others s t a} hs hr := by
    have hsame := hhandles others s
    rw [hr] at hsame
    rwa [Leads, hsame]
  error _ hr hkind := absurd hkind (hx hr)

theorem bind {x : Op α} {f : α → Op β} (hx : Awaits h c x) (hf : ∀ a, Awaits h c (f a)) :
    Awaits h c (x >>= f) where
  ok hs hr := by
    obtain ⟨a, u, hfirst, hrest⟩ := bind_eq_ok.mp hr
    exact (hf a).ok (hx.ok hs hfirst) hrest
  error hs hr hkind := by
    obtain hfirst | ⟨a, u, hfirst, hrest⟩ := bind_eq_error.mp hr
    · exact hx.error hs hfirst hkind
    · exact (hf a).error (hx.ok hs hfirst) hrest hkind

theorem ite {p : Prop} [Decidable p] {x y : Op α} (hx : Awaits h c x) (hy : Awaits h c y) :
    Awaits h c (if p then x else y) := by
  split
  · exact hx
  · exact hy

theorem view (f : Sandbox → α) : Awaits h c (Op.view f) := .of_equipped (.view f) fun _ _ => rfl

theorem need (find : Sandbox → Option α) : Awaits h c (Sandbox.need find) := by
  refine .of_equipped (fails_need find).equipped fun others s => ?_
  unfold Sandbox.need
  split <;> rfl

theorem pure (a : α) : Awaits h c (pure a) := .of_equipped (.pure a) fun _ _ => rfl

theorem change {f : Sandbox → Sandbox} (hf : ∀ s, (f s).handles = s.handles) :
    Awaits h c (Op.change f) :=
  .of_equipped (.change f) fun _ => hf

end Awaits

end Op

namespace Process

theorem awaits_poll (d : Nat) : (poll d).Awaits h c :=
  .bind (.need _) fun _ => .bind (.change fun _ => rfl) fun _ => .pure _

theorem awaits_health (d : Nat) : (health d).Awaits h c := by
  refine .bind (.need _) fun y => ?_
  split
  · exact .bind (.change fun _ => rfl) fun _ => .pure _
  · exact .pure _

end Process

namespace Interpreter

theorem spent_of_reset (hs : s.Leads h c) (hreset : reset h others s = (.ok (), t)) :
    t.Spent c := by
  obtain ⟨x, hx, hc⟩ := hs
  obtain ⟨_, u, hkill, hset⟩ := bind_eq_ok.mp hreset
  obtain rfl := (Prod.mk.inj hset).2
  obtain ⟨x', v, hneed, hkill⟩ := bind_eq_ok.mp hkill
  obtain ⟨hx', rfl⟩ := need_eq_ok hneed
  obtain rfl := Option.some.inj (hx.symm.trans hx')
  rw [hc] at hkill
  obtain ⟨alive, w, hpoll, hkill⟩ := bind_eq_ok.mp hkill
  obtain ⟨y, w', hneed', -⟩ := bind_eq_ok.mp hpoll
  have hy := (need_eq_ok hneed').1
  obtain ⟨halive, rfl⟩ := Prod.mk.inj (hpoll.symm.trans (Process.does_poll hy others))
  obtain rfl := Except.ok.inj halive
  intro z hz halive
  split at hkill
  · obtain rfl := (Prod.mk.inj hkill).2
    obtain ⟨y₁, hy₁, rfl⟩ := Table.getElem?_modify_eq_some.mp hz
    rw [if_pos rfl] at halive ⊢
    exact (Bool.and_eq_true_iff.mp halive).2
  · -- It was found dead.
    obtain rfl := (Prod.mk.inj hkill).2
    obtain ⟨y₁, -, rfl⟩ := Table.getElem?_modify_eq_some.mp hz
    rw [if_pos rfl] at halive
    exact absurd halive ‹_›

theorem awaits_resetting {α : Type} (e : Failure) :
    (do reset h; Op.fail e : Op α).Awaits h c where
  ok hs hr := by
    obtain ⟨_, u, -, hfail⟩ := bind_eq_ok.mp hr
    exact absurd (Prod.mk.inj hfail).1 nofun
  error hs hr hkind := by
    obtain hfirst | ⟨⟨⟩, u, hreset, hfail⟩ := bind_eq_error.mp hr
    · exact absurd hkind ((fails_reset h).equipped hfirst)
    · rw [(fail_eq_error hfail).2]
      exact spent_of_reset hs hreset

theorem awaits_askUp (deadline : Binary64) : (askUp h c deadline).Awaits h c := by
  refine .bind (.need _) fun x => .bind (.view _) fun now => .ite (awaits_resetting _) ?_
  refine .bind (Process.awaits_poll c) fun alive => .ite ?_ (Process.awaits_health c)
  exact .bind (.view _) fun tail => awaits_resetting _

theorem awaits_awaitUp (deadline : Binary64) (pending : List Health) :
    (awaitUp h c deadline pending).Awaits h c := by
  have hsaid {a : Health} {said : Except Failure Unit} (hverdict : verdict a = some said) :
      (Op.ofExcept said).Awaits h c := by
    refine .of_equipped (.ofExcept fun e he => kind_of_verdict (he ▸ hverdict)) fun others s => ?_
    cases said <;> rfl
  induction pending with
  | nil =>
      refine .bind (awaits_askUp deadline) fun answer => ?_
      split
      · exact hsaid ‹_›
      · exact .pure _
  | cons a pending ih =>
      refine .bind (awaits_askUp deadline) fun answer => ?_
      split
      · exact hsaid ‹_›
      · exact .bind (.change fun _ => rfl) fun _ => ih

theorem Foretold.failed {foretold : Option FailureKind × Int} {scripts : List ChildScript}
    {Q : Sandbox → Prop} {F : Failure → Sandbox → Prop}
    (hf : Foretold h foretold scripts Q F (.error e, t)) : F e t := by
  obtain ⟨_ | kind, now⟩ := foretold
  · exact hf.elim
  · exact hf.2

/-- A process that does not come up is given up, and its folder was made. -/
theorem start_gives_up (hs : s.Sane) {x : Handle} (hx : x.child = none)
    (hstart : start s.handles.length others (created s x) = (.error e, t))
    (hkind : e.kind = .initialization) :
    t.Spent s.children.length ∧ t.folders.has x.folder = true := by
  have hx₁ := getElem?_created s x
  have hs₁ := sane_created hs hx
  cases hmake : x.folder.isMakeable with
  | false =>
      have hhandle : (handle s.handles.length).Does (created s x) x (created s x) := does_need hx₁
      have hfails : start s.handles.length others (created s x) =
          (.error (.other "OSError"), created s x) := by
        rw [start, hhandle.step, hmake]
        rfl
      rw [Except.error.inj (Prod.mk.inj (hstart.symm.trans hfails)).1] at hkind
      cases hkind
  | true =>
      refine ⟨?_, ?_⟩
      · rw [start_eq hx₁ hmake] at hstart
        cases hspawn : (s.scripts.headD {}).spawnFailure with
        | some reason =>
            have hlaunch := Process.does_launch_error (readied (created s x) s.handles.length x)
              x.folder hspawn
            have hdead : (Process.launched (readied (created s x) s.handles.length x) x.folder false
                (readied (created s x) s.handles.length x).folders).Spent s.children.length := by
              intro y hy halive
              obtain rfl := Option.some.inj (List.getElem?_concat_length.symm.trans hy)
              cases halive
            have hopens := opens_launched hs hx
            obtain ⟨hreset, -⟩ := does_reset hopens.sane (h := s.handles.length)
              (by rw [hopens.handles]; exact List.getElem?_concat_length)
            rw [hlaunch.step] at hstart
            rw [(fail_eq_error ((hreset.step _ others).symm.trans hstart)).2]
            exact hdead.fade (.ending _)
        | none =>
            obtain ⟨fs, hlaunch, -⟩ := Process.does_launch
              (readied (created s x) s.handles.length x) x.folder hspawn
            rw [hlaunch.step] at hstart
            have hattach := attach_eq (created s x) s.handles.length x fs x.startupTimeout others
            refine (awaits_awaitUp _ _).error ⟨_, getElem?_attached_handles hx₁ fs, rfl⟩
              (hattach.symm.trans hstart) hkind
      · have hforetold := start_foretold hs₁ hx₁ hmake others
        rw [hstart] at hforetold
        obtain ⟨f, hf, -⟩ := Option.bind_eq_some_iff.mp hforetold.failed.1
        rw [Folders.has, hf]
        rfl

end Interpreter

namespace Registry

/-! ### Failed starts -/

/-- What failed starts leave: nothing of what there was has changed but folders, and of the
processes that were started none lives on that can be killed. -/
structure Spoiled (n : Nat) (s t : Sandbox) : Prop where
  sane : t.Sane
  tables : s.SameTables t
  grows : s.Grows n t
  spent {c : Nat} : s.children.length ≤ c → t.Spent c

theorem Spoiled.refl (hs : s.Sane) : Spoiled 0 s s :=
  ⟨hs, .refl s, .refl s, fun hc y hy => absurd hy (by rw [List.getElem?_eq_none hc]; exact nofun)⟩

theorem Spoiled.trans {n m : Nat} (hf : Spoiled n s t) (hf' : Spoiled m t u) :
    Spoiled (n + m) s u where
  sane := hf'.sane
  tables := hf.tables.trans hf'.tables
  grows := hf.grows.trans hf'.grows
  spent {c} hc := by
    by_cases hlt : t.children.length ≤ c
    · exact hf'.spent hlt
    · -- What was started before stays as it was left.
      intro y hy halive
      have hz := List.getElem?_eq_getElem (Nat.lt_of_not_le hlt)
      rw [hf'.grows.child hz] at hy
      exact hf.spent hc y (hz.trans hy) halive

theorem spoiled_start {folder : Path} {timeout : Binary64} (hs : s.Sane) {h : Nat} {t u v : Sandbox}
    (hcreate : Interpreter.create folder timeout others s = (.ok h, t))
    (hstart : Interpreter.start h others t = (.error e, u)) (hkind : e.kind = .initialization)
    (hreset : Interpreter.reset h others u = (.ok (), v)) :
    Spoiled 1 s v ∧ v.folders.has folder = true := by
  let x : Handle := { folder, startupTimeout := timeout }
  obtain ⟨rfl, rfl⟩ : s.handles.length = h ∧ Interpreter.created s x = t := by
    obtain ⟨hh, ht⟩ := Prod.mk.inj hcreate
    exact ⟨Except.ok.inj hh, ht⟩
  have hadded := Interpreter.start_added (s := s) (x := x) rfl others
  rw [hstart] at hadded
  have htended := Interpreter.tends_reset _ _ others u hadded.leadsOnly
  rw [hreset] at htended
  obtain ⟨result, u', y, hstart', hopens, -⟩ := Interpreter.start_opens hs x rfl others
  obtain ⟨-, rfl⟩ := Prod.mk.inj (hstart.symm.trans hstart')
  obtain ⟨hspent, hhas⟩ := Interpreter.start_gives_up hs (x := x) rfl hstart hkind
  obtain ⟨hdoes, hsane, -⟩ := Interpreter.does_reset hopens.sane (h := s.handles.length)
    (by rw [hopens.handles]; exact List.getElem?_concat_length)
  obtain ⟨-, rfl⟩ := Prod.mk.inj (hreset.symm.trans (hdoes others))
  have hgrows := Sandbox.Grows.of_added (hadded.tended htended)
  refine ⟨⟨hsane, { hopens.tables with }, hgrows, fun {c} hc => ?_⟩, hhas⟩
  obtain hc | hc := Nat.eq_or_lt_of_le hc
  · rw [← hc]
    exact hspent.fade (.ending _)
  · intro y hy
    have hlt := (List.getElem?_eq_some_iff.mp hy).1
    exact absurd (Nat.lt_of_lt_of_le hlt hgrows.lengths.2) (Nat.not_lt.mpr hc)

theorem FailedStarts.spoiled {folder : Path} {timeout : Binary64} {n : Nat}
    (hf : FailedStarts folder timeout others n s t) (hs : s.Sane) : Spoiled n s t := by
  induction hf with
  | none => exact .refl hs
  | @more n h s t u v w e hcreate hstart hkind hreset _ ih =>
      obtain ⟨hfirst, -⟩ := spoiled_start hs hcreate hstart hkind hreset
      rw [Nat.add_comm]
      exact hfirst.trans (ih hfirst.sane)

theorem FailedStarts.has_folder {folder : Path} {timeout : Binary64} {n : Nat}
    (hf : FailedStarts folder timeout others n s t) (hs : s.Sane)
    (hhas : 0 < n ∨ s.folders.has folder = true) : t.folders.has folder = true := by
  induction hf with
  | none => exact hhas.resolve_left (Nat.lt_irrefl 0)
  | more hcreate hstart hkind hreset _ ih =>
      obtain ⟨hfirst, hmade⟩ := spoiled_start hs hcreate hstart hkind hreset
      exact ih hfirst.sane (.inr hmade)

/-! ### What is forgone -/

/-- What is left when the session of a key could not be got because no interpreter came up. -/
structure Forgone (key : String) (s t : Sandbox) : Prop extends Bystanders key s t where
  session : t.sessions.lookup key = none
  /-- At most two processes were started, and none of them lives on that can be killed. -/
  starts : t.children.length ≤ s.children.length + 2
  spent {c : Nat} : s.children.length ≤ c → t.Spent c
  /-- The interpreter of a session that was registered under the key is down. -/
  down {r : Nat} {x : Record} : s.sessions.lookup key = some r → s.records[r]? = some x → Down x s t
  /-- There is a folder that would be that of the session. -/
  folder : ∃ p, folderOf s.setup key = .ok p ∧ t.folders.has p = true
  /-- Taking the session down does nothing. -/
  reset : (Registry.reset key).Does t () t

theorem Spoiled.elsewhere {n : Nat} (hf : Spoiled n s t) (hs : s.Sane) (K : String → Prop) :
    Elsewhere K s t where
  session _ := by rw [hf.tables.sessions]
  record {r x} hx _ := by
    obtain ⟨-, w, hw, -⟩ := hs.record hx
    exact ⟨by rw [hf.tables.records, hx], (hf.grows.handle hw).trans hw.symm⟩
  child hy _ := hf.grows.child hy

theorem Down.spoiled {n : Nat} (hdown : Down x s t) (hf : Spoiled n t u) (hs : s.Sane)
    (hlength : t.children.length = s.children.length) : Down x s u := by
  obtain ⟨w, hw, hnone⟩ := hdown.handle
  refine ⟨⟨w, hf.grows.handle hw, hnone⟩, fun {v c y} hv hc hy => ?_⟩
  obtain ⟨z, hz, -⟩ := hs.handle hv hc
  have hlt := (List.getElem?_eq_some_iff.mp hz).1
  rw [← hlength] at hlt
  have hz' := List.getElem?_eq_getElem hlt
  rw [hf.grows.child hz'] at hy
  exact hdown.process hv hc (hz'.trans hy)

theorem acquire_forgone (hs : s.Sane) (ha : s.Apart) (hkeys : (s.sessions.map (·.1)).Nodup)
    {request : Option String}
    (h : acquire Contexts.onSweep request others s = (.error e, t))
    (hkind : e.kind = .initialization) : ∃ key reason, e = .startFailed key reason ∧
      (∀ k, request = some k → k ≠ "" → key = k) ∧ Forgone key s t := by
  obtain ⟨key, v, hprepared, hacquire, hsame⟩ := acquire_prepared hs ha request others
  have hprovide : provide key others v = (.error e, t) := by
    obtain hprovide | ⟨_, w, -, hpure⟩ := bind_eq_error.mp (hacquire.symm.trans h)
    · exact hprovide
    · exact absurd (Prod.mk.inj hpure).1 nofun
  have hstill := hprepared.still hs
  have hprovision := provide_provision hprepared.sane hprepared.apart key others
  have hswept := swept_provide key others v
  rw [hprovide] at hprovision hswept
  obtain ⟨u, hvacated, henter⟩ : ∃ u, Vacated key others v u ∧
      enter key others u = (.error e, t) := by
    cases hprovision with
    | held _ _ _ hresult => exact absurd (Prod.mk.inj hresult).1 nofun
    | answered _ _ _ _ hresult => exact absurd (Prod.mk.inj hresult).1 nofun
    | vacated hvacated hresult => exact ⟨_, hvacated, hresult.symm⟩
  have hfailed := enter_failed henter hkind
  obtain ⟨reason, he⟩ := hfailed.failure
  obtain ⟨p, hp, hstarts⟩ := hfailed.starts
  have hspoiled := hstarts.spoiled hvacated.sane
  have hlength : u.children.length = s.children.length :=
    hvacated.still.children.trans hstill.children
  have hlast := hvacated.elsewhere.trans ⟨fun hk hr => ?_, fun hk ho => ?_⟩
    (hspoiled.elsewhere hvacated.sane _)
  rotate_left
  · subst hk
    exact absurd (hvacated.session.symm.trans hr) nofun
  · subst hk
    obtain ⟨r, -, -, hr, -⟩ := ho.owner
    exact absurd (hvacated.session.symm.trans hr) nofun
  have hnone : t.sessions.lookup key = none := by
    rw [hspoiled.tables.sessions]
    exact hvacated.session
  refine ⟨key, reason, he, hsame, { hprepared.bystanders hs ha hkeys hlast hswept with
    session := hnone, starts := ?_, spent := fun hc => hspoiled.spent (hlength ▸ hc)
    down := fun {r x} hr hx => ?_, folder := ⟨p, ?_, ?_⟩, reset := fun others => ?_ }⟩
  · rw [← hlength]
    exact hspoiled.grows.lengths.2
  · by_cases hidle : key ∈ idleKeys s
    · exact ((hprepared.gone hs ha hidle hr hx).elsewhere hlast).1.down hs
    · have hr' : v.sessions.lookup key = some r :=
        ((hprepared.elsewhere hs ha).session hidle).trans hr
      have huntouched := hprepared.untouched hs ha hr'
      have hdown := hvacated.down hr' (huntouched.record.trans hx)
      have hdown' : Down x s u :=
        ⟨hdown.handle, fun hw => hdown.process ((huntouched.handle hx).trans hw)⟩
      exact hdown'.spoiled hspoiled hs hlength
  · rw [← hp, hvacated.still.setup, hstill.setup]
  · exact hstarts.has_folder hvacated.sane (.inl Nat.two_pos)
  · simp [Registry.reset, bind_apply, Op.view, find?, hnone]

end Registry

/-- A session that cannot be got for want of an interpreter is not registered, and leaves no live
process, but its folder. -/
theorem Sandbox.Fresh.forgone (hs : s.Fresh) (h : Steps ⟨s, [], []⟩ b) {request : Option String}
    (hacquire : Registry.acquire Contexts.onSweep request others b.box = (.error e, t))
    (hkind : e.kind = .initialization) : ∃ key reason, e = .startFailed key reason ∧
      (∀ k, request = some k → k ≠ "" → key = k) ∧ Registry.Forgone key b.box t := by
  have hsane : s.Sane := hs.sound.toSane
  have hmoves := h.moves hsane
  exact Registry.acquire_forgone (hmoves.sane hsane) (hmoves.apart hsane hs.apart)
    (hmoves.ordered hsane hs.ordered).keys hacquire hkind

/-- A sandbox in which two interpreters cannot be spawned. -/
def Sandbox.sterile : Sandbox :=
  { usual with scripts := [{ spawnFailure := some "no" }, { spawnFailure := some "no" }] }

def Failure.told {α : Type} : Except Failure α → Option (FailureKind × String)
  | .ok _ => none
  | .error e => some (e.kind, e.message)

/-- After two spawns that failed the folder of a session is there that is not registered, and stays
when the session is taken down, although no folders are to be kept. -/
theorem Sandbox.forgone_sterile : ∃ e t p,
    Registry.acquire Contexts.onSweep (some "k") (orderly 0) sterile = (.error e, t) ∧
    e.message = "Could not start interpreter for session k: " ++
      "Could not spawn interpreter process: no" ∧
    sterile.setup.keepLogs = false ∧ t.sessions.lookup "k" = none ∧
    Registry.folderOf sterile.setup "k" = .ok p ∧ t.folders.has p = true ∧
    (Registry.reset "k").Does t () t := by
  have hfresh : sterile.Fresh := ⟨rfl, rfl, rfl, rfl, rfl, rfl, rfl, rfl, rfl⟩
  have htold : Failure.told (Registry.acquire Contexts.onSweep (some "k") (orderly 0) sterile).1 =
      some (.initialization, "Could not start interpreter for session k: " ++
        "Could not spawn interpreter process: no") := by
    decide +kernel
  rcases hacquire : Registry.acquire Contexts.onSweep (some "k") (orderly 0) sterile with
    ⟨e | k, t⟩ <;> rw [hacquire] at htold
  · obtain ⟨hkind, hmessage⟩ := Prod.mk.inj (Option.some.inj htold)
    obtain ⟨key, reason, -, hsame, hforgone⟩ := hfresh.forgone .refl hacquire hkind
    obtain rfl := hsame "k" rfl (by decide)
    obtain ⟨p, hp, hhas⟩ := hforgone.folder
    exact ⟨e, t, p, rfl, hmessage, rfl, hforgone.session, hp, hhas, hforgone.reset⟩
  · exact absurd htold nofun

end Rerun
