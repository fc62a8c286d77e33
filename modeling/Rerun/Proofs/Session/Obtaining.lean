import Rerun.Proofs.Sandbox.Acquire
import Rerun.Proofs.Sandbox.Growth
import Rerun.Proofs.Sandbox.Outside
import Rerun.Proofs.Session.Culling
import Rerun.Proofs.Session.Forgetting

/-!
What getting a session does to the registry, whatever sessions there are, however long they were not
used, and whatever their interpreters answer (`Registry.Obtained`). The session that is given out is
held by somebody, or has just answered a probe, or was just started. Apart from it only those
sessions change that were idle: they are taken down, and the key of each is told once.
-/

namespace Rerun

open Sandbox Op

variable {s t u : Sandbox} {a b : Scene} {key : String} {r : Nat} {x : Record}
  {others : Interrupts}

/-! ### Probes -/

namespace Process

/-- Whether a process answers when it is looked at. -/
def answers (y : Child) : Bool :=
  aliveAt y && match nextHealth { y with polls := y.polls + 1, alive := true } with
    | .status n => n = 200
    | .fault _ => false

end Process

namespace Interpreter

theorem probe_answers (hs : s.Sane) {h c : Nat} {w : Handle} {y : Child}
    (hw : s.handles[h]? = some w) (hc : w.child = some c) (hy : s.children[c]? = some y)
    (others : Interrupts) : (probe h others s).1 = .ok (Process.answers y) := by
  have hpoll := Process.does_poll hy
  have hs₁ := hs.modifyChild c (f := fun c =>
    { c with polls := c.polls + 1, alive := Process.aliveAt y }) fun _ => rfl
  rw [probe, handle, (does_need hw).step, hc]
  dsimp only
  rw [hpoll.step, Process.answers]
  cases halive : Process.aliveAt y with
  | false => rfl
  | true =>
      rw [halive] at hs₁
      have hy₁ : (s.children.modify c fun c => { c with polls := c.polls + 1, alive := true })[c]? =
          some { y with polls := y.polls + 1, alive := true } :=
        Table.getElem?_modify_eq_some.mpr ⟨y, hy, by rw [if_pos rfl]⟩
      obtain ⟨cs, hhealth, -⟩ := Process.does_health hs₁ hy₁
      rw [if_neg (by simp), hhealth.step]
      cases Process.nextHealth { y with polls := y.polls + 1, alive := true } <;> rfl

theorem probe_of_childless {h : Nat} {w : Handle} (hw : s.handles[h]? = some w)
    (hc : w.child = none) (others : Interrupts) : probe h others s = (.ok false, s) := by
  rw [probe, handle, (does_need hw).step, hc]
  rfl

end Interpreter

namespace Registry

theorem Untouched.probe (h : Untouched key r s t) (hs : s.Sane) (ht : t.Sane)
    (hx : s.records[r]? = some x) (others : Interrupts) :
    (Interpreter.probe x.handle others t).1 = (Interpreter.probe x.handle others s).1 := by
  obtain ⟨-, w, hw, -⟩ := hs.record hx
  have hw' := (h.handle hx).trans hw
  cases hc : w.child with
  | none =>
      rw [Interpreter.probe_of_childless hw hc, Interpreter.probe_of_childless hw' hc]
  | some c =>
      obtain ⟨y, hy, -⟩ := hs.handle hw hc
      rw [Interpreter.probe_answers hs hw hc hy,
        Interpreter.probe_answers ht hw' hc ((h.child hx hw hc).trans hy)]

structure Probed (key : String) (s t : Sandbox) : Prop where
  sane : t.Sane
  tables : t = { s with children := t.children }
  length : t.children.length = s.children.length
  elsewhere : Elsewhere (· = key) s t

theorem probed (hs : s.Sane) (hr : s.sessions.lookup key = some r)
    (hx : s.records[r]? = some x) {b : Bool}
    (h : Interpreter.probe x.handle others s = (.ok b, t)) : Probed key s t := by
  obtain ⟨-, w, hw, -⟩ := hs.record hx
  cases hc : w.child with
  | none =>
      obtain ⟨-, rfl⟩ := Prod.mk.inj (h.symm.trans (Interpreter.probe_of_childless hw hc others))
      exact ⟨hs, rfl, rfl, .refl _ _⟩
  | some c =>
      obtain ⟨b', cs, hprobe, hs', -⟩ := Interpreter.does_probe hs hw
      obtain ⟨-, rfl⟩ := Prod.mk.inj (h.symm.trans (hprobe others))
      have honly : s.LeadsOnly x.handle c := fun y d hy hd => by
        obtain rfl := Option.some.inj (hw.symm.trans hy)
        exact Option.some.inj (hd.symm.trans hc)
      have htended := Interpreter.tends_probe x.handle c others s honly
      rw [h] at htended
      obtain ⟨f, hf⟩ := htended.children
      have hf : cs = s.children.modify c f := hf
      refine ⟨hs', rfl, ?_, fun _ => rfl, fun hx _ => ⟨hx, rfl⟩, fun {d y} hy hno => ?_⟩
      · show cs.length = _
        rw [hf, List.length_modify]
      · show cs[d]? = _
        rw [hf, List.getElem?_modify_ne]
        · exact hy
        · rintro rfl
          exact hno key rfl ⟨r, x, w, hr, hx, hw, hc⟩

/-! ### Starts -/

abbrev OnlyFolders (s t : Sandbox) : Prop := t = { s with folders := t.folders }

instance : IsPreorder Sandbox OnlyFolders where
  refl _ := rfl
  trans _ _ u h h' := h'.trans (congrArg (fun v : Sandbox => { v with folders := u.folders }) h)

theorem onlyFolders_writeJournal (key : String) (entry : List (String × Json)) :
    (writeJournal key entry).Along OnlyFolders := by
  refine .bind (.view _) fun s => .ite (.pure _) ?_
  split
  · exact .pure _
  · exact .bind (.need _) fun info => .change fun _ => rfl

theorem onlyFolders_writeMetadata (key : String) (fields : List (String × Json)) :
    (writeMetadata key fields).Along OnlyFolders := by
  refine .bind (.view _) fun s => .ite (.pure _) ?_
  split
  · exact .pure _
  · exact .bind (.need _) fun info => .bind (.ofExcept _) fun merged => .change fun _ => rfl

theorem start_launched (h : start key others s = (.ok r, t)) :
    s.Grows 2 t ∧ ∃ x, Launched others s r x t := by
  obtain ⟨setup, u, hview, hrest⟩ := bind_eq_ok.mp h
  obtain ⟨-, rfl⟩ := view_eq_ok hview
  obtain ⟨folder, v, hfolder, htwice⟩ := bind_eq_ok.mp hrest
  obtain rfl : v = u := by
    cases hf : folderOf setup key with
    | error e =>
        rw [hf] at hfolder
        exact absurd (Prod.mk.inj hfolder).1 nofun
    | ok p =>
        rw [hf] at hfolder
        exact (Prod.mk.inj hfolder).2.symm
  have hstarted := @startTwice_grows v others key folder setup.startupTimeout 2 .notInitialized
  rw [htwice] at hstarted
  obtain ⟨hgrows, hlast⟩ := hstarted
  exact ⟨hgrows, hlast r rfl⟩

structure Entered (key : String) (others : Interrupts) (s : Sandbox) (r : Nat) (x : Record)
    (t : Sandbox) : Prop where
  started : ∃ v, Launched others s r x v ∧
    t = { v with sessions := Assoc.put v.sessions key r, folders := t.folders }
  grows : s.Grows 2 t
  attached : ∃ c y, Attached t r x c y
  elsewhere : Elsewhere (· = key) s t

theorem entered (hs : s.Sane) (h : enter key others s = (.ok (), t)) :
    ∃ r x, Entered key others s r x t := by
  obtain ⟨r, u, hregister, hwrites⟩ := bind_eq_ok.mp h
  obtain ⟨r', v, hstart, hput⟩ := bind_eq_ok.mp hregister
  obtain ⟨rfl, rfl⟩ : r' = r ∧ { v with sessions := Assoc.put v.sessions key r' } = u := by
    obtain ⟨hr, hu⟩ := Prod.mk.inj hput
    exact ⟨Except.ok.inj hr, hu⟩
  obtain ⟨hgrows, x, hlaunched⟩ := start_launched hstart
  obtain ⟨hr', x', hrecords, -, -, -, hsame⟩ := start_eq_ok hstart
  have hx : v.records[r']? = some x := by
    obtain ⟨w, w', -, hv⟩ := hlaunched.start
    have hlast : w'.records ++ [x] = s.records ++ [x'] := (congrArg records hv).symm.trans hrecords
    obtain ⟨-, hxx'⟩ := List.append_inj' hlast rfl
    rw [hrecords, hr', (List.cons.inj hxx').1]
    exact List.getElem?_concat_length
  have hfolders : OnlyFolders { v with sessions := Assoc.put v.sessions key r' } t := by
    have hlast : (do
        let info ← record r'
        let t ← now
        writeMetadata key [("session_id", .str key), ("created_at", timeText t),
          ("session_dir", .str info.folder.text), ("execution_count", .int 0),
          ("last_used", timeText t)]
        writeJournal key [("event", .str "session_started")] : Op Unit).Along OnlyFolders :=
      .bind (.need _) fun info => .bind (.view _) fun now =>
        .bind (onlyFolders_writeMetadata _ _) fun _ => onlyFolders_writeJournal _ _
    have hkept := hlast.holds others { v with sessions := Assoc.put v.sessions key r' }
    rwa [hwrites] at hkept
  refine ⟨r', x, ⟨v, hlaunched, hfolders⟩, ?_, ?_, ?_⟩
  · rw [hfolders]
    exact { hgrows with }
  · obtain ⟨p, script, -, -, -, r₀, v₀, x₀, c, y, heq, -, hattached, -⟩ | ⟨-, e, v₀, heq⟩ :=
      start_foretold hs key others
    · obtain ⟨hr₀, rfl⟩ := Prod.mk.inj (hstart.symm.trans heq)
      obtain rfl := Except.ok.inj hr₀
      obtain rfl := Option.some.inj (hx.symm.trans hattached.record)
      refine ⟨c, y, ?_⟩
      rw [hfolders]
      exact { hattached with }
    · exact absurd (hstart.symm.trans heq) nofun
  · rw [hfolders]
    refine ⟨fun hk => ?_, fun {r x} hx _ => ⟨?_, ?_⟩, fun hy _ => hgrows.child hy⟩
    · exact (Assoc.lookup_put_of_ne _ _ hk).trans (congrArg (List.lookup _) hsame.sessions)
    · show v.records[r]? = _
      rw [hrecords]
      exact Table.getElem?_concat_of_some hx
    · obtain ⟨-, w, hw, -⟩ := hs.record hx
      exact (hgrows.handle hw).trans hw.symm

/-! ### What is provided -/

/-- The interpreter of a record is down: its handle leads nowhere, and the process that was behind
it is dead, unless it outlives being killed. -/
structure Down (x : Record) (s t : Sandbox) : Prop where
  handle : ∃ w, t.handles[x.handle]? = some w ∧ w.child = none
  process {w : Handle} {c : Nat} {y : Child} : s.handles[x.handle]? = some w → w.child = some c →
    t.children[c]? = some y → y.alive = true → y.script.stubborn = true

theorem Closed.down (h : Closed x s t) (hs : s.Sane) : Down x s t := by
  obtain ⟨w, -, hw⟩ := h.handle
  refine ⟨⟨_, hw, rfl⟩, fun hv hc hy halive => ?_⟩
  obtain ⟨y, hz, -⟩ := hs.handle hv hc
  obtain rfl := Option.some.inj (hy.symm.trans (h.process hv hc hz))
  exact (Bool.and_eq_true_iff.mp halive).2

/-- The way is free for a new session of a key: if there was one, it was taken down, and its
interpreter did not answer. -/
structure Vacated (key : String) (others : Interrupts) (s t : Sandbox) : Prop where
  sane : t.Sane
  session : t.sessions.lookup key = none
  elsewhere : Elsewhere (· = key) s t
  still : Still s t
  dead {r : Nat} {x : Record} : s.sessions.lookup key = some r → s.records[r]? = some x →
    x.state = .ready → (Interpreter.probe x.handle others s).1 = .ok false
  down {r : Nat} {x : Record} : s.sessions.lookup key = some r → s.records[r]? = some x → Down x s t

/-- How it comes to a live session under a key, and to what. -/
inductive Provision (key : String) (others : Interrupts) (s : Sandbox)
    (result : Except Failure Unit × Sandbox) : Prop
  /-- Somebody holds it. -/
  | held {r : Nat} {x : Record} : s.sessions.lookup key = some r → s.records[r]? = some x →
      x.state = .busy → result = (.ok (), s) → Provision key others s result
  /-- Its interpreter has just answered. -/
  | answered {r : Nat} {x : Record} {v : Sandbox} : s.sessions.lookup key = some r →
      s.records[r]? = some x → x.state = .ready →
      Interpreter.probe x.handle others s = (.ok true, v) →
      result = (.ok (), { v with
        records := v.records.modify r fun y => { y with lastUsed := v.clock } }) →
      Provision key others s result
  /-- A new one is entered. -/
  | vacated {u : Sandbox} : Vacated key others s u → result = enter key others u →
      Provision key others s result

/-- A session that cannot be used is taken down before another one is entered. -/
theorem vacated (hr : s.sessions.lookup key = some r) (hx : s.records[r]? = some x)
    (hu : u.Sane) (hu' : u.Apart) (hstill : Still s u) (helsewhere : Elsewhere (· = key) s u)
    (hsessions : u.sessions = s.sessions) (hhandles : u.handles = s.handles)
    (hprobe : x.state = .ready → (Interpreter.probe x.handle others s).1 = .ok false) :
    ∃ v, Vacated key others s v ∧
      (do reset key; enter key : Op Unit) others u = enter key others v := by
  obtain ⟨v, hreset, htorn⟩ := does_reset hu key
  have hdwindles : Dwindles (· = key) s u := by
    refine ⟨fun _ hr => hsessions ▸ hr, fun _ ho => ?_⟩
    obtain ⟨r, y, w, howner⟩ := ho.owner
    rw [hsessions, hstill.records, hhandles] at howner
    exact ⟨r, y, w, howner⟩
  refine ⟨v, ⟨htorn.sane, ?_, helsewhere.trans hdwindles (.of_tornDown htorn hu hu'),
    hstill.trans (htorn.toStill hu), fun hr' hx' hready => ?_, fun hr' hx' => ?_⟩,
    hreset.step _ others⟩
  · rw [htorn.sessions]
    exact Assoc.lookup_drop_self _ _
  · obtain rfl := Option.some.inj (hr.symm.trans hr')
    obtain rfl := Option.some.inj (hx.symm.trans hx')
    exact hprobe hready
  · rw [← hsessions] at hr'
    rw [← hstill.records] at hx'
    have hdown := (htorn.gone hu hu' hr' hx').closed.down hu
    refine ⟨hdown.handle, fun hw => hdown.process ?_⟩
    rw [hhandles]
    exact hw

theorem provide_provision (hs : s.Sane) (ha : s.Apart) (key : String) (others : Interrupts) :
    Provision key others s (provide key others s) := by
  rw [provide, (does_view _).step]
  cases hr : find? s key with
  | none =>
      have hnobody {r : Nat} : s.sessions.lookup key ≠ some r :=
        fun hr' => Option.some_ne_none r (hr'.symm.trans hr)
      exact .vacated ⟨hs, hr, .refl _ _, ⟨rfl, rfl, rfl, rfl, rfl⟩, fun hr' => absurd hr' hnobody,
        fun hr' => absurd hr' hnobody⟩ rfl
  | some r =>
      obtain ⟨x, hx, -⟩ := hs.session hr
      have hrecord : (record r).Does s x s := does_need hx
      -- A session that is neither ready nor held has an interpreter that nobody asks.
      have unasked (hstate : x.state ≠ .ready)
          (huse : usable r others s = (.ok false, s)) : Provision key others s
            ((do if ← usable r then pure () else do reset key; enter key : Op Unit) others s) := by
        obtain ⟨v, hvacated, hentered⟩ : ∃ v, Vacated key others s v ∧
            (do reset key; enter key : Op Unit) others s = enter key others v :=
          vacated hr hx hs ha ⟨rfl, rfl, rfl, rfl, rfl⟩ (.refl _ _) rfl rfl fun h => absurd h hstate
        exact .vacated hvacated ((bind_of_eq_ok huse _).trans hentered)
      cases hstate : x.state with
      | busy =>
          have huse : usable r others s = (.ok true, s) := by
            rw [usable, hrecord.step, hstate]
            rfl
          exact .held hr hx hstate (bind_of_eq_ok huse _)
      | ready =>
          obtain ⟨-, w, hw, -⟩ := hs.record hx
          obtain ⟨alive, cs, hdoes, -⟩ := Interpreter.does_probe hs hw
          have hprobe := hdoes others
          have hprobed := probed hs hr hx hprobe
          have huse : usable r others s = (do
              if alive then do
                let t ← now
                setRecord r fun x => { x with lastUsed := t }
                pure true
              else pure false : Op Bool) others { s with children := cs } := by
            rw [usable, hrecord.step, hstate]
            exact hdoes.step _ others
          cases alive with
          | true =>
              exact .answered hr hx hstate hprobe (bind_of_eq_ok huse _)
          | false =>
              obtain ⟨v, hvacated, hentered⟩ : ∃ v, Vacated key others s v ∧
                  (do reset key; enter key : Op Unit) others { s with children := cs } =
                    enter key others v :=
                vacated hr hx hprobed.sane { ha with } ⟨rfl, rfl, rfl, rfl, hprobed.length⟩
                  hprobed.elsewhere rfl rfl fun _ => by rw [hprobe]
              exact .vacated hvacated ((bind_of_eq_ok huse _).trans hentered)
      | uninitialized =>
          exact unasked (by simp [hstate]) (by rw [usable, hrecord.step, hstate]; rfl)
      | corrupted =>
          exact unasked (by simp [hstate]) (by rw [usable, hrecord.step, hstate]; rfl)

/-! ### What is obtained -/

/-- Why the interpreter of a session can be used: it has just answered a probe, after which nothing
happened but that the time of its use was noted, or it has just come up, after which its session was
registered. -/
inductive Fit (key : String) (others : Interrupts) (r : Nat) (x : Record) (t : Sandbox) : Prop
  | answered {u v : Sandbox} : Interpreter.probe x.handle others u = (.ok true, v) →
      t = { v with records := v.records.modify r fun y => { y with lastUsed := v.clock } } →
      Fit key others r x t
  | started {u v : Sandbox} : Interpreter.start x.handle others u = (.ok (), v) →
      t = { v with
        records := v.records ++ [x], sessions := Assoc.put v.sessions key r
        folders := t.folders } →
      Fit key others r x t

/-- What becomes of the other sessions when that of a key is asked for: those that are idle go. -/
structure Bystanders (key : String) (s t : Sandbox) : Prop where
  /-- Another session that is not idle stays as it is. -/
  kept {k : String} {r : Nat} {x : Record} : k ≠ key → s.sessions.lookup k = some r →
    s.records[r]? = some x → isIdle s x = false → Untouched k r s t
  /-- The interpreter of an idle session is reset. -/
  culled {k : String} {r : Nat} {x : Record} : s.sessions.lookup k = some r →
    s.records[r]? = some x → isIdle s x = true → Closed x s t
  /-- Another idle session is not registered any more. -/
  dropped {k : String} {r : Nat} {x : Record} : k ≠ key → s.sessions.lookup k = some r →
    s.records[r]? = some x → isIdle s x = true → t.sessions.lookup k = none
  absent {k : String} : k ≠ key → s.sessions.lookup k = none → t.sessions.lookup k = none
  /-- The keys of the idle sessions are told, each once, and no others. -/
  told : ∃ keys, t.swept = s.swept ++ keys ∧ keys.Nodup ∧ ∀ k, k ∈ keys ↔
    ∃ r x, s.sessions.lookup k = some r ∧ s.records[r]? = some x ∧ isIdle s x = true

/-- What getting the session of a key does to the registry. -/
structure Obtained (key : String) (others : Interrupts) (s t : Sandbox) : Prop
    extends Bystanders key s t where
  /-- The key is registered. Its session is busy and nothing has happened to it, or it is ready and
  its interpreter can be used. -/
  session : ∃ r x, t.sessions.lookup key = some r ∧ t.records[r]? = some x ∧
    (x.state = .busy ∧ Untouched key r s t ∨
      x.state = .ready ∧ Fit key others r x t ∧ ∃ c y, Attached t r x c y)
  /-- A session that is ready, not idle, and answers is kept, and no interpreter is started. -/
  reused {r : Nat} {x : Record} : s.sessions.lookup key = some r → s.records[r]? = some x →
    x.state = .ready → isIdle s x = false →
    (Interpreter.probe x.handle others s).1 = .ok true →
    t.sessions.lookup key = some r ∧ t.records[r]? = some { x with lastUsed := s.clock } ∧
      t.handles[x.handle]? = s.handles[x.handle]? ∧ t.handles.length = s.handles.length ∧
      t.children.length = s.children.length
  /-- At most two interpreters are started. -/
  starts : t.handles.length ≤ s.handles.length + 2 ∧ t.children.length ≤ s.children.length + 2

namespace Provision

variable {result : Except Failure Unit × Sandbox}

/-- Nothing happens to what does not belong to the session of the key, wherever a new one is
entered. -/
theorem elsewhere (h : Provision key others s result) (hs : s.Sane)
    (hentered : ∀ u, Vacated key others s u → result = enter key others u →
      Elsewhere (· = key) u result.2) : Elsewhere (· = key) s result.2 := by
  cases h with
  | held _ _ _ hresult => exact hresult ▸ .refl _ _
  | @answered r x v hr hx hready hprobe hresult =>
      have hprobed := probed hs hr hx hprobe
      rw [hresult]
      refine ⟨hprobed.elsewhere.session, fun {r' y} hy hno => ?_, hprobed.elsewhere.child⟩
      obtain ⟨hy', hhandle⟩ := hprobed.elsewhere.record hy hno
      refine ⟨Table.getElem?_modify_eq_some.mpr ⟨y, hy', ?_⟩, hhandle⟩
      rw [if_neg]
      rintro rfl
      exact hno key rfl hr
  | vacated hvacated hresult =>
      have hfree {r : Nat} : _ ≠ some r := fun hr => absurd (hvacated.session.symm.trans hr) nofun
      refine hvacated.elsewhere.trans ⟨fun hk hr => ?_, fun hk ho => ?_⟩
        (hentered _ hvacated hresult)
      · subst hk
        exact absurd hr hfree
      · subst hk
        obtain ⟨r, -, -, hr, -⟩ := ho.owner
        exact absurd hr hfree

theorem starts (h : Provision key others s result) (hs : s.Sane)
    (hentered : ∀ u, Vacated key others s u → result = enter key others u → u.Grows 2 result.2) :
    result.2.handles.length ≤ s.handles.length + 2 ∧
      result.2.children.length ≤ s.children.length + 2 := by
  cases h with
  | held _ _ _ hresult => exact hresult ▸ ⟨Nat.le_add_right _ _, Nat.le_add_right _ _⟩
  | @answered r x v hr hx hready hprobe hresult =>
      have hprobed := probed hs hr hx hprobe
      have hhandles : v.handles = s.handles := by rw [hprobed.tables]
      rw [hresult]
      dsimp only
      rw [hhandles, hprobed.length]
      exact ⟨Nat.le_add_right _ _, Nat.le_add_right _ _⟩
  | vacated hvacated hresult =>
      obtain ⟨hhandles, hchildren⟩ := (hentered _ hvacated hresult).lengths
      rw [← hvacated.still.handles, ← hvacated.still.children]
      exact ⟨hhandles, hchildren⟩

theorem session (h : Provision key others s (.ok (), t)) (hs : s.Sane)
    (hbusy : ∀ (r : Nat) (x : Record), s.records[r]? = some x → x.locked = true →
      x.state = .busy) :
    ∃ r x, t.sessions.lookup key = some r ∧ t.records[r]? = some x ∧
      (x.state = .busy ∧ t = s ∨
        x.state = .ready ∧ Fit key others r x t ∧ ∃ c y, Attached t r x c y) := by
  cases h with
  | @held r x hr hx hstate hresult =>
      obtain rfl := (Prod.mk.inj hresult).2
      exact ⟨r, x, hr, hx, .inl ⟨hstate, rfl⟩⟩
  | @answered r x v hr hx hready hprobe hresult =>
      have hprobed := probed hs hr hx hprobe
      obtain ⟨-, w, hw, -⟩ := hs.record hx
      obtain ⟨b, cs, hdoes, -, -, hlive⟩ := Interpreter.does_probe hs hw
      obtain ⟨hb, hv⟩ := Prod.mk.inj (hprobe.symm.trans (hdoes others))
      obtain ⟨c, y, hc, hy, halive⟩ := hlive (Except.ok.inj hb).symm
      have hfree : x.locked = false :=
        Bool.eq_false_iff.mpr fun hl => absurd (hready.symm.trans (hbusy r x hx hl)) nofun
      have hsession : v.sessions.lookup key = some r := by
        rw [hprobed.tables]
        exact hr
      have hrecord : (v.records.modify r fun y => { y with lastUsed := v.clock })[r]? =
          some { x with lastUsed := v.clock } :=
        Table.getElem?_modify_eq_some.mpr ⟨x, by rw [hprobed.tables]; exact hx, by rw [if_pos rfl]⟩
      have hhandle : v.handles[x.handle]? = some w := by
        rw [hprobed.tables]
        exact hw
      have hchild : v.children[c]? = some y := by
        rw [hv]
        exact hy
      obtain rfl := (Prod.mk.inj hresult).2
      exact ⟨r, _, hsession, hrecord, .inr ⟨hready, .answered hprobe rfl, c, y,
        hrecord, hready, hfree, ⟨w, hhandle, hc⟩, hchild, halive⟩⟩
  | vacated hvacated hresult =>
      obtain ⟨r, x, hentered⟩ := entered hvacated.sane hresult.symm
      obtain ⟨v, hlaunched, ht⟩ := hentered.started
      obtain ⟨c, y, hattached⟩ := hentered.attached
      obtain ⟨w, w', hstart, rfl⟩ := hlaunched.start
      refine ⟨r, x, ?_, hattached.record,
        .inr ⟨hattached.ready, .started hstart ht, c, y, hattached⟩⟩
      rw [ht]
      exact Assoc.lookup_put_self _ _ _

theorem reused (h : Provision key others s result) (hs : s.Sane)
    (hr : s.sessions.lookup key = some r) (hx : s.records[r]? = some x) (hready : x.state = .ready)
    (hanswers : (Interpreter.probe x.handle others s).1 = .ok true) :
    result.2.sessions.lookup key = some r ∧
      result.2.records[r]? = some { x with lastUsed := s.clock } ∧
      result.2.handles = s.handles ∧ result.2.children.length = s.children.length := by
  cases h with
  | held hr' hx' hbusy =>
      obtain rfl := Option.some.inj (hr.symm.trans hr')
      obtain rfl := Option.some.inj (hx.symm.trans hx')
      exact absurd (hready.symm.trans hbusy) nofun
  | @answered r' x' v hr' hx' _ hprobe hresult =>
      obtain rfl := Option.some.inj (hr.symm.trans hr')
      obtain rfl := Option.some.inj (hx.symm.trans hx')
      have hprobed := probed hs hr hx hprobe
      have hlength := hprobed.length
      rw [hprobed.tables] at hresult
      rw [hresult]
      exact ⟨hr, Table.getElem?_modify_eq_some.mpr ⟨x, hx, by rw [if_pos rfl]⟩, rfl, hlength⟩
  | vacated hvacated _ =>
      rw [hvacated.dead hr hx hready] at hanswers
      exact absurd (Except.ok.inj hanswers) Bool.false_ne_true

end Provision

/-- A key is found at once, and nothing else happens than that it may be a new one. -/
theorem keyFor_ok (request : Option String) (others : Interrupts) (s : Sandbox) :
    ∃ key n, keyFor request others s = (.ok key, { s with drawnIds := n }) ∧
      ∀ k, request = some k → k ≠ "" → key = k := by
  have hanonymous : ∃ key n, keyFor.anonymous others s = (.ok key, { s with drawnIds := n }) :=
    ⟨_, _, rfl⟩
  unfold keyFor
  split
  · split
    · obtain ⟨key, n, hdraw⟩ := hanonymous
      refine ⟨key, n, hdraw, fun k hk hne => absurd ?_ hne⟩
      exact (Option.some.inj hk).symm.trans ‹_›
    · exact ⟨_, s.drawnIds, rfl, fun k hk _ => Option.some.inj hk⟩
  · obtain ⟨key, n, hdraw⟩ := hanonymous
    exact ⟨key, n, hdraw, nofun⟩

/-- The state in which a session is provided: a sweep is over, and a key was found. -/
structure Prepared (s t : Sandbox) : Prop where
  sane : t.Sane
  apart : t.Apart
  culls : ∃ u, Culls (idleKeys s) s u ∧ t = { u with drawnIds := t.drawnIds }

theorem acquire_prepared (hs : s.Sane) (ha : s.Apart) (request : Option String)
    (others : Interrupts) : ∃ key t, Prepared s t ∧
      acquire Contexts.onSweep request others s =
        (do provide key; pure key : Op String) others t ∧
      ∀ k, request = some k → k ≠ "" → key = k := by
  obtain ⟨u, hsweep, hculls⟩ := sweep_culls hs
  obtain ⟨key, n, hkey, hsame⟩ := keyFor_ok request others u
  have hsane : Sandbox.Sane { u with drawnIds := n } := by
    have hkept := Sandbox.Drifts.sane (drifts_keyFor request others u) (hculls.sane hs)
    rwa [hkey] at hkept
  refine ⟨key, _, ⟨hsane, { hculls.apart hs ha with }, u, hculls, rfl⟩, ?_, hsame⟩
  rw [acquire, hsweep.step, bind_of_eq_ok hkey]

namespace Prepared

theorem still (h : Prepared s t) (hs : s.Sane) : Still s t := by
  obtain ⟨u, hculls, ht⟩ := h.culls
  rw [ht]
  exact { hculls.toStill hs with }

theorem elsewhere (h : Prepared s t) (hs : s.Sane) (ha : s.Apart) :
    Elsewhere (· ∈ idleKeys s) s t := by
  obtain ⟨u, hculls, ht⟩ := h.culls
  rw [ht]
  exact { hculls.elsewhere hs ha with }

theorem dropped (h : Prepared s t) (hs : s.Sane) (ha : s.Apart) (hkey : key ∈ idleKeys s) :
    t.sessions.lookup key = none := by
  obtain ⟨u, hculls, ht⟩ := h.culls
  rw [ht]
  exact hculls.dropped hs ha hkey

theorem gone (h : Prepared s t) (hs : s.Sane) (ha : s.Apart) (hkey : key ∈ idleKeys s)
    (hr : s.sessions.lookup key = some r) (hx : s.records[r]? = some x) : Gone r x s t := by
  obtain ⟨u, hculls, ht⟩ := h.culls
  have hgone := hculls.gone hs ha hkey hr hx
  rw [ht]
  exact { hgone with
    closed := { hgone.closed with }
    unowned := fun k hw hc ho => hgone.unowned k hw hc ⟨ho.owner⟩ }

/-- The sessions that the sweep has passed over are there as they were. -/
theorem untouched (h : Prepared s t) (hs : s.Sane) (ha : s.Apart)
    (hr : t.sessions.lookup key = some r) : Untouched key r s t := by
  have hkey : key ∉ idleKeys s := fun hk => absurd ((h.dropped hs ha hk).symm.trans hr) nofun
  exact (h.elsewhere hs ha).untouched hs ha hkey
    (((h.elsewhere hs ha).session hkey).symm.trans hr)

theorem session (h : Prepared s t) (hs : s.Sane) (ha : s.Apart)
    (hkeys : (s.sessions.map (·.1)).Nodup) (hr : s.sessions.lookup key = some r)
    (hx : s.records[r]? = some x) (hidle : isIdle s x = false) :
    t.sessions.lookup key = some r := by
  refine ((h.elsewhere hs ha).session fun hk => ?_).trans hr
  obtain ⟨r', x', hr', hx', hidle'⟩ := (mem_idleKeys hkeys).mp hk
  obtain rfl := Option.some.inj (hr.symm.trans hr')
  obtain rfl := Option.some.inj (hx.symm.trans hx')
  exact absurd (hidle.symm.trans hidle') Bool.false_ne_true

/-- What becomes of the others, when after the sweep nothing happens to any session but that of the
key. -/
theorem bystanders (h : Prepared s t) (hs : s.Sane) (ha : s.Apart)
    (hkeys : (s.sessions.map (·.1)).Nodup) (hlast : Elsewhere (· = key) t u)
    (hswept : u.swept = t.swept) : Bystanders key s u where
  kept hk hr hx hidle :=
    have hr' := h.session hs ha hkeys hr hx hidle
    (h.untouched hs ha hr').trans (hlast.untouched h.sane h.apart hk hr')
  culled hr hx hidle :=
    ((h.gone hs ha ((mem_idleKeys hkeys).mpr ⟨_, _, hr, hx, hidle⟩) hr hx).elsewhere hlast).1
  dropped hk hr hx hidle := (hlast.session hk).trans
    (h.dropped hs ha ((mem_idleKeys hkeys).mpr ⟨_, _, hr, hx, hidle⟩))
  absent hk hnone := by
    refine (hlast.session hk).trans (((h.elsewhere hs ha).session fun hk => ?_).trans hnone)
    obtain ⟨r, -, hr, -⟩ := (mem_idleKeys hkeys).mp hk
    exact absurd (hnone.symm.trans hr) nofun
  told := by
    obtain ⟨v, hculls, ht⟩ := h.culls
    refine ⟨idleKeys s, ?_, nodup_idleKeys hkeys, fun k => mem_idleKeys hkeys⟩
    rw [hswept, ht]
    exact hculls.swept

end Prepared

theorem swept_provide (key : String) (others : Interrupts) (s : Sandbox) :
    (provide key others s).2.swept = s.swept := by
  have houtside : SameOutside s (provide key others s).2 :=
    (pervades_outside.provide key).holds others s
  rw [houtside]

theorem acquire_obtained (hs : a.box.Sane) (ha : a.box.Apart) (ho : a.Ordered)
    {request : Option String}
    (h : acquire Contexts.onSweep request others a.box = (.ok key, t)) :
    Obtained key others a.box t := by
  obtain ⟨k, v, hprepared, hacquire, -⟩ := acquire_prepared hs ha request others
  obtain ⟨_, w, hprovide, hpure⟩ := bind_eq_ok.mp (hacquire.symm.trans h)
  obtain ⟨hk, rfl⟩ := Prod.mk.inj hpure
  obtain rfl := Except.ok.inj hk
  have hprovision := provide_provision hprepared.sane hprepared.apart k others
  have hswept := swept_provide k others v
  rw [hprovide] at hprovision hswept
  have hstill := hprepared.still hs
  have hlast := hprovision.elsewhere hprepared.sane fun u hvacated hresult => by
    obtain ⟨r, x, hentered⟩ := entered hvacated.sane hresult.symm
    exact hentered.elsewhere
  have hstarts := hprovision.starts hprepared.sane fun u hvacated hresult => by
    obtain ⟨r, x, hentered⟩ := entered hvacated.sane hresult.symm
    exact hentered.grows
  rw [hstill.handles, hstill.children] at hstarts
  refine { hprepared.bystanders hs ha ho.keys hlast hswept with
    session := ?_, reused := fun hr hx hready hidle hanswers => ?_, starts := hstarts }
  · obtain ⟨r, x, hr, hx, ⟨hbusy, rfl⟩ | hready⟩ := hprovision.session hprepared.sane
      fun r x hx hl => by
        rw [hstill.records] at hx
        exact (ho.busy hx).mpr hl
    · exact ⟨r, x, hr, hx, .inl ⟨hbusy, hprepared.untouched hs ha hr⟩⟩
    · exact ⟨r, x, hr, hx, .inr hready⟩
  · have hr' := hprepared.session hs ha ho.keys hr hx hidle
    have hsame := hprepared.untouched hs ha hr'
    rw [← hsame.probe hs hprepared.sane hx] at hanswers
    obtain ⟨hsession, hrecord, hhandles, hchildren⟩ :=
      hprovision.reused hprepared.sane hr' (hsame.record.trans hx) hready hanswers
    rw [hstill.clock] at hrecord
    dsimp only at hhandles hchildren
    rw [hhandles, hchildren, hstill.handles, hstill.children]
    exact ⟨hsession, hrecord, hsame.handle hx, rfl, rfl⟩

end Registry

/-- Getting a session, after whatever clients have done, gives out a session that can be used, and
changes no others but those that are idle. -/
theorem Sandbox.Fresh.obtained (hs : s.Fresh) (h : Steps ⟨s, [], []⟩ b) {request : Option String}
    (hacquire : Registry.acquire Contexts.onSweep request others b.box = (.ok key, t)) :
    Registry.Obtained key others b.box t := by
  have hsane : s.Sane := hs.sound.toSane
  have hmoves := h.moves hsane
  exact Registry.acquire_obtained (hmoves.sane hsane) (hmoves.apart hsane hs.apart)
    (hmoves.ordered hsane hs.ordered) hacquire

theorem Steps.acquire {scopes : List (String × Nat)} {requests : List Execution.Request}
    (h : Steps a ⟨s, scopes, requests⟩) (others : Interrupts) (key : Option String) :
    Steps a ⟨(Registry.acquire Contexts.onSweep key others s).2, scopes, requests⟩ :=
  h.tail (.acquire ⟨s, scopes, requests⟩ others key)

/-- Two sessions, one of which is held, long after they were asked for. -/
def Sandbox.aged : Sandbox :=
  (Registry.held (Registry.acquire Contexts.onSweep (some "h") (orderly 0) waiting).2 1).later
  3000000

/-- The session that is held outlasts the other one when a third one is asked for. -/
theorem Sandbox.obtained_aged : ∃ b t, Steps ⟨usual, [], []⟩ b ∧
    Registry.acquire Contexts.onSweep (some "m") (orderly 0) b.box = (.ok "m", t) ∧
    Registry.Obtained "m" (orderly 0) b.box t ∧ t.swept = ["k"] ∧
    t.sessions.map (·.1) = ["h", "m"] := by
  obtain ⟨hr, hfree⟩ :
      (Registry.acquire Contexts.onSweep (some "h") (orderly 0) waiting).2.sessions.lookup "h" =
        some 1 ∧
      (Registry.acquire Contexts.onSweep (some "h") (orderly 0) waiting).2.records[1]?.any
        (!·.locked) = true := by
    decide +kernel
  obtain ⟨x, hx, hfree⟩ := (Option.any_eq_true _ _).mp hfree
  have hwaiting : Steps ⟨usual, [], []⟩ ⟨waiting, [], []⟩ :=
    Steps.acquire .refl (orderly 0) (some "k")
  have hsteps : Steps ⟨usual, [], []⟩ ⟨aged, [("h", 1)], []⟩ :=
    ((hwaiting.acquire (orderly 0) (some "h")).enter hr hx (by simpa using hfree)).tail
      (.drift (.later _ 3000000))
  obtain ⟨hgot, hswept, hsessions⟩ :
      (Registry.acquire Contexts.onSweep (some "m") (orderly 0) aged).1.toOption = some "m" ∧
      (Registry.acquire Contexts.onSweep (some "m") (orderly 0) aged).2.swept = ["k"] ∧
      (Registry.acquire Contexts.onSweep (some "m") (orderly 0) aged).2.sessions.map (·.1) =
        ["h", "m"] := by
    decide +kernel
  rcases hacquire : Registry.acquire Contexts.onSweep (some "m") (orderly 0) aged with ⟨got, t⟩
  rw [hacquire] at hgot hswept hsessions
  obtain rfl : got = .ok "m" := by
    cases got with
    | error e => exact absurd hgot nofun
    | ok k => exact congrArg Except.ok (Option.some.inj hgot)
  exact ⟨_, t, hsteps, hacquire, fresh_usual.obtained hsteps hacquire, hswept, hsessions⟩

end Rerun
