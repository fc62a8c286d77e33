import Rerun.Proofs.Sandbox.Sessions

/-!
Taking a session down, step by step. In a sane state none of the steps fails, so that a teardown
always drops its session from the registry, and it changes nothing but the processes, their handles
and the folders.
-/

namespace Rerun

open Sandbox Op

variable {s : Sandbox}

/-- The replies that the processes have still to give, by their identities. -/
def Sandbox.replies (s : Sandbox) : List (List Scripted) := s.children.map (·.script.replies)

theorem Sandbox.replies_modify (s : Sandbox) (i : Nat) {f : Child → Child}
    (hf : ∀ c, (f c).script.replies = c.script.replies) :
    replies { s with children := s.children.modify i f } = s.replies :=
  Table.map_modify hf _ _

namespace Process

theorem does_poll {c : Nat} {y : Child} (hy : s.children[c]? = some y) :
    (poll c).Does s (aliveAt y) { s with children := s.children.modify c fun c =>
      { c with polls := c.polls + 1, alive := aliveAt y } } :=
  .bind (does_need hy) fun _ => rfl

def nextHealth (y : Child) : Health :=
  y.script.health.headD (if y.alive then .status 200 else .fault refusal)

theorem does_health (hs : s.Sane) {c : Nat} {y : Child} (hy : s.children[c]? = some y) :
    ∃ cs, (health c).Does s (nextHealth y) { s with children := cs } ∧
    Sane { s with children := cs } ∧
      replies { s with children := cs } = s.replies ∧
      cs[c]? = some { y with script := { y.script with health := y.script.health.tail } } := by
  cases hhealth : y.script.health with
  | nil =>
      refine ⟨s.children, .bind (does_need hy) ?_, { hs with }, rfl, ?_⟩
      · rw [nextHealth, hhealth]
        exact does_pure _
      · rw [List.tail_nil, ← hhealth]
        exact hy
  | cons a rest =>
      refine ⟨_, .bind (does_need hy) ?_, hs.modifyChild c (f := fun c =>
        { c with script := { c.script with health := rest } }) fun _ => rfl,
        replies_modify s c fun _ => rfl,
        Table.getElem?_modify_eq_some.mpr ⟨y, hy, by rw [if_pos rfl]; rfl⟩⟩
      rw [nextHealth, hhealth]
      exact .bind (does_change _) (does_pure _)

end Process

namespace Process

/-- A process that was ended: it was looked at, and killed unless it was found dead. -/
def ended (y : Child) : Child :=
  { y with polls := y.polls + 1, alive := aliveAt y && y.script.stubborn }

/-- The processes after the one behind a handle, if there is one, was ended. -/
def ending (cs : List Child) : Option Nat → List Child
  | none => cs
  | some c => cs.modify c ended

end Process

namespace Interpreter

theorem modify_ended {cs : List Child} {c : Nat} {y : Child} (hy : cs[c]? = some y)
    {f g : Child → Child} (h : g (f y) = Process.ended y) :
    (cs.modify c f).modify c g = cs.modify c Process.ended := by
  refine List.ext_getElem? fun j => ?_
  rw [List.getElem?_modify, List.getElem?_modify, List.getElem?_modify]
  by_cases hj : c = j
  · subst hj
    simp [hy, h]
  · simp [hj]

theorem does_kill (hs : s.Sane) {h : Nat} {x : Handle} (hx : s.handles[h]? = some x) :
    (kill h).Does s () { s with children := Process.ending s.children x.child } ∧
      Sane { s with children := Process.ending s.children x.child } ∧
      replies { s with children := Process.ending s.children x.child } = s.replies := by
  cases hc : x.child with
  | none =>
      refine ⟨.bind (does_need hx) fun _ => ?_, { hs with }, rfl⟩
      rw [hc]
      rfl
  | some c =>
      obtain ⟨y, hy, -⟩ := hs.handle hx hc
      refine ⟨.bind (does_need hx) ?_, hs.modifyChild c fun _ => rfl,
        replies_modify s c fun _ => rfl⟩
      rw [hc]
      refine .bind (Process.does_poll hy) fun _ => ?_
      cases halive : Process.aliveAt y with
      | true =>
          refine congrArg (fun cs => (Except.ok (), { s with children := cs })) ?_
          refine modify_ended hy (f := fun c => { c with polls := c.polls + 1, alive := true })
            (g := fun c => { c with alive := c.alive && c.script.stubborn }) ?_
          simp [Process.ended, halive]
      | false =>
          refine congrArg (fun cs => (Except.ok (), { s with children := cs })) ?_
          refine (List.modify_id c _).symm.trans (modify_ended hy
            (f := fun c => { c with polls := c.polls + 1, alive := false }) ?_)
          simp [Process.ended, halive]

theorem does_reset (hs : s.Sane) {h : Nat} {x : Handle} (hx : s.handles[h]? = some x) :
    (reset h).Does s () { s with
        children := Process.ending s.children x.child
        handles := s.handles.modify h fun x => { x with child := none } } ∧
      Sane { s with
        children := Process.ending s.children x.child
        handles := s.handles.modify h fun x => { x with child := none } } ∧
      replies { s with children := Process.ending s.children x.child } = s.replies := by
  obtain ⟨hkill, hsane, hreplies⟩ := does_kill hs hx
  exact ⟨.bind hkill fun _ => rfl, hsane.modifyHandle h (fun _ => rfl) nofun, hreplies⟩

end Interpreter

namespace Registry

structure Wrote (key : String) (s : Sandbox) (fs : Folders) : Prop where
  proper : fs.Proper
  has {p : Path} : s.folders.has p = true → fs.has p = true
  logs : s.setup.keepLogs = false → fs = s.folders
  spares {r : Nat} {x : Record} : s.sessions.lookup key = some r → s.records[r]? = some x →
    s.folders.Spares x.folder fs

theorem Wrote.refl (hs : s.Sane) (key : String) : Wrote key s s.folders :=
  ⟨hs.metadata, id, fun _ => rfl, fun _ _ => .refl _ _⟩

theorem Wrote.revise (hs : s.Sane) (hlogs : s.setup.keepLogs = true) {key : String} {r : Nat}
    {x : Record} (hr : s.sessions.lookup key = some r) (hx : s.records[r]? = some x)
    {f : Folder → Folder} (hf : ∀ g j, (f g).metadata = some (some j) →
      g.metadata = some (some j) ∨ ∃ fields, j = .obj fields) :
    Wrote key s (s.folders.revise x.folder f) where
  proper := hs.metadata.revise hf
  has := Folders.has_revise_of_has x.folder f
  logs h := absurd (hlogs.symm.trans h) nofun
  spares hr' hy := by
    obtain rfl := Option.some.inj (hr.symm.trans hr')
    obtain rfl := Option.some.inj (hx.symm.trans hy)
    exact Folders.spares_revise _ _ _

theorem does_writeJournal (hs : s.Sane) (key : String) (entry : List (String × Json)) :
    ∃ fs, (writeJournal key entry).Does s () { s with folders := fs } ∧ Wrote key s fs := by
  have still (h : ∀ others, writeJournal key entry others s = (.ok (), s)) :
      ∃ fs, (writeJournal key entry).Does s () { s with folders := fs } ∧ Wrote key s fs :=
    ⟨s.folders, h, .refl hs key⟩
  cases hlogs : s.setup.keepLogs with
  | false => exact still fun _ => by simp [writeJournal, bind_apply, Op.view, hlogs]
  | true =>
      cases hr : find? s key with
      | none => exact still fun _ => by simp [writeJournal, bind_apply, Op.view, hlogs, hr]
      | some r =>
          obtain ⟨x, hx, -⟩ := hs.session hr
          have hrecord : (record r).Does s x s := does_need hx
          refine ⟨s.folders.revise x.folder fun g => { g with
              journal := some (g.journal.getD [] ++ [.obj <|
                if (entry.lookup "timestamp").isSome then entry
                else Assoc.put entry "timestamp" (timeText s.clock)]) },
            fun others => ?_, Wrote.revise hs hlogs hr hx fun g j hj => .inl hj⟩
          simp [writeJournal, bind_apply, Op.view, Op.change, hlogs, hr, hrecord others]

theorem mergeMetadata_ok (hs : s.Sane) (p : Path) (fields : List (String × Json)) :
    ∃ all, mergeMetadata ((s.folders.find? p).bind (·.metadata)) fields = .ok (.obj all) := by
  rcases hf : (s.folders.find? p).bind (·.metadata) with _ | _ | j
  · exact ⟨_, rfl⟩
  · exact ⟨_, rfl⟩
  · obtain ⟨g, hg, hj⟩ := Option.bind_eq_some_iff.mp hf
    obtain ⟨before, rfl⟩ := hs.metadata p g j hg hj
    exact ⟨_, rfl⟩

theorem does_writeMetadata (hs : s.Sane) (key : String) (fields : List (String × Json)) :
    ∃ fs, (writeMetadata key fields).Does s () { s with folders := fs } ∧ Wrote key s fs := by
  have still (h : ∀ others, writeMetadata key fields others s = (.ok (), s)) :
      ∃ fs, (writeMetadata key fields).Does s () { s with folders := fs } ∧ Wrote key s fs :=
    ⟨s.folders, h, .refl hs key⟩
  cases hlogs : s.setup.keepLogs with
  | false => exact still fun _ => by simp [writeMetadata, bind_apply, Op.view, hlogs]
  | true =>
      cases hr : find? s key with
      | none => exact still fun _ => by simp [writeMetadata, bind_apply, Op.view, hlogs, hr]
      | some r =>
          obtain ⟨x, hx, -⟩ := hs.session hr
          obtain ⟨all, hmerged⟩ := mergeMetadata_ok hs x.folder fields
          have hrecord : (record r).Does s x s := does_need hx
          refine ⟨s.folders.revise x.folder fun g => { g with metadata := some (some (.obj all)) },
            fun others => ?_, Wrote.revise hs hlogs hr hx fun g j hj => .inr ⟨all, ?_⟩⟩
          · simp [writeMetadata, bind_apply, Op.view, Op.change, Op.ofExcept, hlogs, hr,
              hrecord others, hmerged]
          · exact (Option.some.inj (Option.some.inj hj)).symm

/-- What a teardown leaves: its session is gone from the registry and its process is ended,
processes and handles work in the folders where they did, its folder is gone unless folders are
kept, and folders apart from that one are spared. -/
structure TornDown (key : String) (s t : Sandbox) : Prop where
  sane : t.Sane
  tables : t = { s with
    sessions := Assoc.drop s.sessions key
    folders := t.folders, children := t.children, handles := t.handles }
  replies : t.replies = s.replies
  handle {h : Nat} {x : Handle} : s.handles[h]? = some x →
    ∃ y, t.handles[h]? = some y ∧ y.folder = x.folder
  still : s.sessions.lookup key = none → t = s
  process {r : Nat} {x : Record} : s.sessions.lookup key = some r → s.records[r]? = some x →
    ∃ h, s.handles[x.handle]? = some h ∧ t.children = Process.ending s.children h.child ∧
      t.handles = s.handles.modify x.handle fun h => { h with child := none }
  removed {r : Nat} {x : Record} : s.sessions.lookup key = some r → s.records[r]? = some x →
    s.setup.keepLogs = false → t.folders = s.folders.remove x.folder
  kept {p : Path} : s.sessions.lookup key = none ∨ s.setup.keepLogs = true →
    s.folders.has p = true → t.folders.has p = true
  elsewhere {r : Nat} {x : Record} : s.sessions.lookup key = some r → s.records[r]? = some x →
    s.folders.Spares x.folder t.folders

theorem TornDown.sessions {key : String} {t : Sandbox} (h : TornDown key s t) :
    t.sessions = Assoc.drop s.sessions key := by
  rw [h.tables]

theorem TornDown.records {key : String} {t : Sandbox} (h : TornDown key s t) :
    t.records = s.records := by
  rw [h.tables]

/-- A state without the session of a key and its process, and with other folders. -/
def withoutSession (s : Sandbox) (key : String) (x : Record) (h : Handle) (fs : Folders) :
    Sandbox :=
  { s with
    sessions := Assoc.drop s.sessions key
    folders := fs
    children := Process.ending s.children h.child
    handles := s.handles.modify x.handle fun h => { h with child := none } }

theorem tornDown_withoutSession {key : String} {r : Nat} {x : Record} {h : Handle} {fs : Folders}
    (hr : s.sessions.lookup key = some r) (hx : s.records[r]? = some x)
    (hh : s.handles[x.handle]? = some h) (hsane : (withoutSession s key x h fs).Sane)
    (hreplies : (withoutSession s key x h fs).replies = s.replies)
    (hremoved : s.setup.keepLogs = false → fs = s.folders.remove x.folder)
    (hkept : s.setup.keepLogs = true → ∀ p, s.folders.has p = true → fs.has p = true)
    (hspares : s.folders.Spares x.folder fs) : TornDown key s (withoutSession s key x h fs) where
  sane := hsane
  tables := rfl
  replies := hreplies
  still hnone := absurd (hr.symm.trans hnone) nofun
  process {r' y} hr' hy := by
    obtain rfl := Option.some.inj (hr.symm.trans hr')
    obtain rfl := Option.some.inj (hx.symm.trans hy)
    exact ⟨h, hh, rfl, rfl⟩
  handle {h z} hz := by
    refine ⟨_, Table.getElem?_modify_eq_some.mpr ⟨z, hz, rfl⟩, ?_⟩
    split <;> rfl
  removed {r' y} hr' hy hlogs := by
    have hrr : r' = r := Option.some.inj (hr'.symm.trans hr)
    rw [hrr] at hy
    have hxy : y = x := Option.some.inj (hy.symm.trans hx)
    rw [hxy]
    exact hremoved hlogs
  kept {p} h hp := by
    obtain h | h := h
    · exact absurd (hr.symm.trans h) nofun
    · exact hkept h p hp
  elsewhere {r' y} hr' hy := by
    obtain rfl := Option.some.inj (hr.symm.trans hr')
    obtain rfl := Option.some.inj (hx.symm.trans hy)
    exact hspares

theorem does_reset (hs : s.Sane) (key : String) :
    ∃ t, (reset key).Does s () t ∧ TornDown key s t := by
  cases hr : s.sessions.lookup key with
  | none =>
      have hdoes : (reset key).Does s () s := fun _ => by
        simp [reset, bind_apply, Op.view, find?, hr]
      have hno {r : Nat} : s.sessions.lookup key ≠ some r := by
        rw [hr]
        exact (Option.some_ne_none r).symm
      refine ⟨s, hdoes, hs, ?_, rfl, fun hx => ⟨_, hx, rfl⟩, fun _ => rfl,
        fun h => absurd h hno, fun h => absurd h hno, fun _ => id, fun h => absurd h hno⟩
      rw [Assoc.drop_of_lookup_none hr]
  | some r =>
      obtain ⟨x, hx, -⟩ := hs.session hr
      obtain ⟨-, handle, hhandle, -⟩ := hs.record hx
      obtain ⟨fs, hjournal, hwrote⟩ :=
        does_writeJournal hs key [("event", .str "session_stopped")]
      have hs₁ := hs.folders hwrote.proper
      obtain ⟨fs', hmetadata, hwrote'⟩ := does_writeMetadata hs₁ key
        [("stopped_at", timeText s.clock), ("final_execution_count", .int x.executions)]
      have hs₂ := (hs₁.folders hwrote'.proper).dropSession key
      have hspares : s.folders.Spares x.folder fs' :=
        (hwrote.spares hr hx).trans (hwrote'.spares hr hx)
      obtain ⟨hkill, hs₃, hreplies⟩ := Interpreter.does_reset hs₂ hhandle
      have hs₃ : (withoutSession s key x handle fs').Sane := hs₃
      have hdoes {t : Sandbox} (hlast : (if !s.setup.keepLogs then Op.change fun s =>
          { s with folders := s.folders.remove x.folder } else pure ()).Does
            (withoutSession s key x handle fs') () t) : (reset key).Does s () t := by
        refine .bind (does_view _) ?_
        have hfound : find? s key = some r := hr
        rw [hfound]
        exact .bind hjournal (.bind (does_need hx) (.bind (does_view _) (.bind hmetadata
          (.bind (does_change _) (.bind hkill (.bind (does_view _) hlast))))))
      cases hlogs : s.setup.keepLogs with
      | false =>
          rw [hlogs] at hdoes
          have hfs : fs' = s.folders := (hwrote'.logs hlogs).trans (hwrote.logs hlogs)
          refine ⟨withoutSession s key x handle (fs'.remove x.folder), hdoes (does_change _),
            tornDown_withoutSession hr hx hhandle (hs₃.folders ?_) hreplies (fun _ => ?_)
              (fun h => ?_) ?_⟩
          · exact hs₃.metadata.remove x.folder
          · rw [hfs]
          · exact absurd (hlogs.symm.trans h) Bool.false_ne_true
          · exact hspares.trans (Folders.spares_remove _ _)
      | true =>
          rw [hlogs] at hdoes
          refine ⟨withoutSession s key x handle fs', hdoes (does_pure ()),
            tornDown_withoutSession hr hx hhandle hs₃ hreplies (fun h => ?_) (fun _ p hp => ?_)
              hspares⟩
          · exact absurd (h.symm.trans hlogs) Bool.false_ne_true
          · exact hwrote'.has (hwrote.has hp)

end Registry

end Rerun
