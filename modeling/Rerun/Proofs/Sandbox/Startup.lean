import Rerun.Proofs.Sandbox.Teardown

/-!
Whether an interpreter can be started: that depends on the processes that are still to be started,
on the clock and on the folder, and on nothing that the tables hold. One that was started is alive
and works in a folder that exists.
-/

namespace Rerun

open Sandbox Op

variable {s : Sandbox}

/-- What the processes of a folder have printed, if anything was written down. -/
def Folders.printed (fs : Folders) (p : Path) : Option Content :=
  (fs.find? p).bind (·.processLog)

/-- A process that gives only answers that can be made something of when it is asked whether it is
up. -/
def ChildScript.Plain (script : ChildScript) : Prop :=
  ∀ a ∈ script.health, ∀ name message, a ≠ .fault (.protocol name message)

/-- What is printed in a folder when a process was started there, after what was before. -/
def ChildScript.prints (script : ChildScript) (before : Option Content) : Content :=
  let made := before.getD (.text "")
  if script.spawnFailure.isSome then made else script.log.elim made made.append

namespace Interpreter

/-- A process is still waited for, and found alive. -/
def standing (deadline : Binary64) (exitAfter : Option Nat) (now : Int) (polls : Nat) : Bool :=
  (Binary64.ofMillis now).lt deadline && exitAfter.all (polls < ·)

/-- What stands against a process that is waited for no longer. -/
def against : Except Failure Unit → Option FailureKind
  | .ok () => none
  | .error e => some e.kind

/-- How waiting for a live process goes: what stands against it, if anything does, and when it is
over. -/
def rise (deadline : Binary64) (exitAfter : Option Nat) :
    List Health → (now : Int) → (polls : Nat) → Option FailureKind × Int
  | [], now, polls =>
    if standing deadline exitAfter now polls then (none, now) else (some .initialization, now)
  | answer :: rest, now, polls =>
    if standing deadline exitAfter now polls then
      match verdict answer with
      | some said => (against said, now)
      | none =>
        rise deadline exitAfter rest (now + (Binary64.ofDecimal false 5 (-2)).toMillis) (polls + 1)
    else (some .initialization, now)

theorem rise_plain {deadline : Binary64} {exitAfter : Option Nat} {health : List Health}
    (hplain : ∀ a ∈ health, ∀ e, verdict a ≠ some (.error e)) {now later : Int} {polls : Nat}
    {kind : FailureKind} (h : rise deadline exitAfter health now polls = (some kind, later)) :
    kind = .initialization := by
  induction health generalizing now polls with
  | nil =>
      rw [rise] at h
      split at h <;> cases h
      rfl
  | cons a rest ih =>
      rw [rise] at h
      split at h
      · split at h
        · rename_i said hsaid
          cases said with
          | ok _ => cases h
          | error e => exact absurd hsaid (hplain a List.mem_cons_self e)
        · exact ih (fun b hb => hplain b (List.mem_cons_of_mem a hb)) h
      · cases h
        rfl

/-- How starting a process goes. -/
def comeUp (script : ChildScript) (timeout : Binary64) (now : Int) : Option FailureKind × Int :=
  if script.spawnFailure.isSome then (some .initialization, now)
  else rise ((Binary64.ofMillis now).add timeout) script.exitAfter script.health now 0

theorem comeUp_plain {script : ChildScript} (hplain : script.Plain) {timeout : Binary64}
    {now later : Int} {kind : FailureKind} (h : comeUp script timeout now = (some kind, later)) :
    kind = .initialization := by
  rw [comeUp] at h
  split at h
  · cases h
    rfl
  · refine rise_plain (fun a ha e he => ?_) h
    unfold verdict at he
    split at he
    · split at he <;> cases he
    · exact hplain _ ha _ _ rfl
    · cases he

variable {h c : Nat} {x : Handle} {y : Child}

/-- A process as it is while it is waited for: alive, looked at so often, with answers to come. -/
structure Waiting (y : Child) (script : ChildScript) (health : List Health) (polls : Nat) :
    Prop where
  alive : y.alive = true
  exitAfter : y.script.exitAfter = script.exitAfter
  replies : y.script.replies = script.replies
  health : y.script.health = health
  polls : y.polls = polls

variable {script : ChildScript} {health : List Health} {polls : Nat} {deadline : Binary64}

theorem does_askUp (hs : s.Sane) (hx : s.handles[h]? = some x) (hy : s.children[c]? = some y)
    (hw : Waiting y script health polls)
    (hstanding : standing deadline script.exitAfter s.clock polls = true) :
    ∃ cs z, (askUp h c deadline).Does s (health.headD (.status 200)) { s with children := cs } ∧
      Sane { s with children := cs } ∧ cs[c]? = some z ∧
      Waiting z script health.tail (polls + 1) := by
  obtain ⟨hlt, hexit⟩ := Bool.and_eq_true_iff.mp hstanding
  have halive : Process.aliveAt y = true := by
    rw [Process.aliveAt, hw.alive, hw.exitAfter, hw.polls]
    exact hexit
  have hpoll := Process.does_poll hy
  rw [halive] at hpoll
  have hs₁ := hs.modifyChild c (f := fun c => { c with polls := c.polls + 1, alive := true })
    fun _ => rfl
  have hy₁ : (s.children.modify c fun c => { c with polls := c.polls + 1, alive := true })[c]? =
      some { y with polls := y.polls + 1, alive := true } :=
    Table.getElem?_modify_eq_some.mpr ⟨y, hy, by rw [if_pos rfl]⟩
  obtain ⟨cs, hhealth, hs₂, -, hz⟩ := Process.does_health hs₁ hy₁
  refine ⟨cs, _, .bind (does_need hx) (.bind (does_view _) ?_), hs₂, hz,
    ⟨rfl, hw.exitAfter, hw.replies, congrArg List.tail hw.health, congrArg (· + 1) hw.polls⟩⟩
  have hnext : Process.nextHealth { y with polls := y.polls + 1, alive := true } =
      health.headD (.status 200) := by
    rw [Process.nextHealth, hw.health]
    rfl
  rw [hlt, ← hnext]
  exact .bind hpoll hhealth

/-- Why a process is given up, by what it has printed and by the time. -/
def givenUp (timeout deadline : Binary64) (printed : String) (now : Int) : Failure :=
  if (Binary64.ofMillis now).lt deadline then
    .exitedEarly (String.ofList (printed.toList.drop (printed.toList.length - 2000)))
  else .startTimeout timeout

/-- Why a process does not come up that was started at a time and given up at another one. -/
def cause (script : ChildScript) (timeout : Binary64) (began : Int) (printed : Content)
    (ended : Int) : Failure :=
  match script.spawnFailure with
  | some reason => .spawnFailed reason
  | none => givenUp timeout ((Binary64.ofMillis began).add timeout) printed.read ended

structure Fallen (h : Nat) (kind : FailureKind) (now : Int) (scripts : List ChildScript)
    (e : Failure) (t : Sandbox) : Prop where
  kind : e.kind = kind
  sane : t.Sane
  clock : t.clock = now
  scripts : t.scripts = scripts
  handle : ∃ x, t.handles[h]? = some x

/-- A result is as foretold: nothing stands against success, and then `Q` holds, or what stands
against it is why it failed, and then `F` holds. -/
def Foretold (h : Nat) (foretold : Option FailureKind × Int) (scripts : List ChildScript)
    (Q : Sandbox → Prop) (F : Failure → Sandbox → Prop)
    (result : Except Failure Unit × Sandbox) : Prop :=
  match foretold, result with
  | (none, _), (.ok _, t) => Q t
  | (some kind, now), (.error e, t) => Fallen h kind now scripts e t ∧ F e t
  | _, _ => False

theorem Foretold.mono {foretold : Option FailureKind × Int} {scripts : List ChildScript}
    {Q R : Sandbox → Prop} {F G : Failure → Sandbox → Prop}
    {result : Except Failure Unit × Sandbox} (hf : Foretold h foretold scripts Q F result)
    (hQ : ∀ t, Q t → R t) (hF : ∀ e t, F e t → G e t) :
    Foretold h foretold scripts R G result := by
  obtain ⟨_ | kind, now⟩ := foretold <;> obtain ⟨e | a, t⟩ := result
  · exact hf
  · exact hQ t hf
  · exact ⟨hf.1, hF e t hf.2⟩
  · exact hf

/-- A process is given up when it is not waited for any longer, or found dead. -/
theorem askUp_fails (hs : s.Sane) (hx : s.handles[h]? = some x) (hy : s.children[c]? = some y)
    (hw : Waiting y script health polls)
    (hstanding : standing deadline script.exitAfter s.clock polls = false)
    (others : Interrupts) : ∃ t, askUp h c deadline others s = (.error (givenUp x.startupTimeout
        deadline (s.folders.processLogText x.folder) s.clock), t) ∧
      Fallen h .initialization s.clock s.scripts (givenUp x.startupTimeout deadline
        (s.folders.processLogText x.folder) s.clock) t ∧ t.folders = s.folders := by
  have hkept {s' : Sandbox} {x' : Handle} (hx' : s'.handles[h]? = some x') : ∃ y,
      (s'.handles.modify h fun x => { x with child := none })[h]? = some y :=
    ⟨_, Table.getElem?_modify_eq_some.mpr ⟨x', hx', rfl⟩⟩
  have hhandle : handle h others s = (.ok x, s) := does_need hx others
  cases hlt : (Binary64.ofMillis s.clock).lt deadline with
  | false =>
      obtain ⟨hreset, hs', -⟩ := does_reset hs hx
      rw [givenUp, hlt]
      refine ⟨_, ?_, ⟨rfl, hs', rfl, rfl, hkept hx⟩, rfl⟩
      simp [askUp, bind_apply, hhandle, now, Op.view, hlt, hreset others, Op.fail]
  | true =>
      have hdead : Process.aliveAt y = false := by
        rw [standing, hlt, Bool.true_and] at hstanding
        rw [Process.aliveAt, hw.exitAfter, hw.polls, hstanding, Bool.and_false]
      have hpoll := Process.does_poll hy others
      rw [hdead] at hpoll
      obtain ⟨hreset, hs', -⟩ := does_reset (hs.modifyChild c (f := fun c =>
        { c with polls := c.polls + 1, alive := false }) fun _ => rfl) hx
      rw [givenUp, hlt]
      refine ⟨_, ?_, ⟨rfl, hs', rfl, rfl, hkept hx⟩, rfl⟩
      simp [askUp, bind_apply, hhandle, now, Op.view, hlt, hpoll, hreset others, Op.fail, logTail]

structure Risen (c : Nat) (script : ChildScript) (s t : Sandbox) : Prop where
  sane : t.Sane
  tables : s.SameTables t
  handles : t.handles = s.handles
  folders : t.folders = s.folders
  process : ∃ z, t.children[c]? = some z ∧ z.alive = true ∧ z.script.replies = script.replies

theorem kind_of_verdict {a : Health} {e : Failure} (h : verdict a = some (.error e)) :
    e.kind ≠ .initialization := by
  unfold verdict at h
  split at h
  · split at h <;> cases h
  · cases h
    exact nofun
  · cases h

theorem awaitUp_foretold (hs : s.Sane) (hx : s.handles[h]? = some x) (hy : s.children[c]? = some y)
    (hw : Waiting y script health polls) (others : Interrupts) :
    Foretold h (rise deadline script.exitAfter health s.clock polls) s.scripts (Risen c script s)
      (fun e t => t.folders = s.folders ∧ (e.kind = .initialization → e = givenUp x.startupTimeout
        deadline (s.folders.processLogText x.folder) t.clock))
      (awaitUp h c deadline health others s) := by
  induction health generalizing s y polls with
  | nil =>
      rw [rise]
      cases hstanding : standing deadline script.exitAfter s.clock polls with
      | true =>
          obtain ⟨cs, z, hask, hs', hz, hw'⟩ := does_askUp hs hx hy hw hstanding
          rw [awaitUp, bind_apply, hask others]
          exact ⟨hs', { SameTables.refl s with }, rfl, rfl, z, hz, hw'.alive, hw'.replies⟩
      | false =>
          obtain ⟨t, hask, ht, hfolders⟩ := askUp_fails hs hx hy hw hstanding others
          rw [awaitUp, bind_apply, hask]
          refine ⟨ht, hfolders, fun _ => ?_⟩
          rw [ht.clock]
  | cons a rest ih =>
      rw [rise]
      cases hstanding : standing deadline script.exitAfter s.clock polls with
      | true =>
          obtain ⟨cs, z, hask, hs', hz, hw'⟩ := does_askUp hs hx hy hw hstanding
          have hup : Risen c script s { s with children := cs } :=
            ⟨hs', { SameTables.refl s with }, rfl, rfl, z, hz, hw'.alive, hw'.replies⟩
          rw [awaitUp, bind_apply, hask others, if_pos rfl, List.headD_cons]
          dsimp only
          cases hverdict : verdict a with
          | some said =>
              cases said with
              | ok _ => exact hup
              | error e =>
                  refine ⟨⟨rfl, hs', rfl, rfl, x, hx⟩, rfl, fun hkind => ?_⟩
                  exact absurd hkind (kind_of_verdict hverdict)
          | none =>
              -- Only the clock has moved on when it is asked again.
              have hagain := (ih (s := { s with
                children := cs, clock := s.clock + (Binary64.ofDecimal false 5 (-2)).toMillis })
                { hs' with } hx hz hw').mono (R := Risen c script s)
                (fun t ht => { ht with tables := { ht.tables with } }) fun _ _ => id
              exact hagain
      | false =>
          obtain ⟨t, hask, ht, hfolders⟩ := askUp_fails hs hx hy hw hstanding others
          rw [awaitUp, bind_apply, hask]
          refine ⟨ht, hfolders, fun _ => ?_⟩
          rw [ht.clock]

end Interpreter

namespace Process

def launched (s : Sandbox) (p : Path) (alive : Bool) (fs : Folders) : Sandbox :=
  { s with
    scripts := s.scripts.tail
    children := s.children ++ [{ script := s.scripts.headD {}, folder := p, alive }]
    folders := fs }

theorem sane_launched (hs : s.Sane) (p : Path) (alive : Bool) {fs : Folders} (hfs : fs.Proper) :
    (launched s p alive fs).Sane :=
  { (hs.addChild { script := s.scripts.headD {}, folder := p, alive }).folders hfs with }

theorem does_launch_error (s : Sandbox) (p : Path) {reason : String}
    (h : (s.scripts.headD {}).spawnFailure = some reason) :
    (launch p).Does s (.error reason) (launched s p false s.folders) := by
  intro others
  simp only [launch, bind_apply, Op.view, Op.change, h]
  rfl

/-- A process that is spawned is alive, and prints what it prints when it starts. -/
theorem does_launch (s : Sandbox) (p : Path) (h : (s.scripts.headD {}).spawnFailure = none) :
    ∃ fs, (launch p).Does s (.ok s.children.length) (launched s p true fs) ∧
      (s.folders.Proper → fs.Proper) ∧ (∀ q, fs.has q = s.folders.has q) ∧
      ∀ c, s.folders.printed p = some c →
        fs.printed p = some ((s.scripts.headD {}).log.elim c c.append) := by
  cases hlog : (s.scripts.headD {}).log with
  | none =>
      refine ⟨s.folders, fun others => ?_, id, fun _ => rfl, fun _ => id⟩
      simp only [launch, bind_apply, Op.view, Op.change, h, hlog]
      rfl
  | some log =>
      refine ⟨s.folders.update p fun f =>
        { f with processLog := some (f.processLog.elim log (·.append log)) }, fun others => ?_,
        fun hs => hs.update fun _ _ hj => .inl hj, fun q => Folders.has_update _ _ _ _,
        fun c hc => ?_⟩
      · simp only [launch, bind_apply, Op.view, Op.change, h, hlog]
        rfl
      · obtain ⟨f, hf, hc⟩ := Option.bind_eq_some_iff.mp hc
        rw [Folders.printed, Folders.find?_update, if_pos rfl, hf]
        simp [hc]

end Process

namespace Interpreter

variable {h : Nat} {x : Handle}

/-- What starting an interpreter leaves: a live process behind its handle, which works in a folder
that exists. -/
structure Started (h : Nat) (script : ChildScript) (s t : Sandbox) : Prop where
  sane : t.Sane
  tables : s.SameTables t
  process : ∃ z c y, t.handles[h]? = some z ∧ z.child = some c ∧ t.children[c]? = some y ∧
    y.alive = true ∧ y.script.replies = script.replies
  folder {x z : Handle} : s.handles[h]? = some x → t.handles[h]? = some z →
    z.folder = x.folder ∧ t.folders.has x.folder = true

/-- The state in which a handle starts its process: its folder is made and its port is chosen. -/
def readied (s : Sandbox) (h : Nat) (x : Handle) : Sandbox :=
  { s with
    folders := s.folders.revise x.folder fun f =>
      { f with processLog := some (f.processLog.getD (.text "")) }
    handles := s.handles.modify h fun y => { y with port := some (40000 + s.children.length) } }

theorem sane_readied (hs : s.Sane) (h : Nat) (x : Handle) : (readied s h x).Sane := by
  have hproper : (s.folders.revise x.folder fun f =>
      { f with processLog := some (f.processLog.getD (.text "")) }).Proper :=
    hs.metadata.revise fun _ _ hj => .inl hj
  exact (hs.folders hproper).modifyHandle h (fun _ => rfl) fun _ _ _ hc => .inl hc

theorem printed_readied (s : Sandbox) (h : Nat) (x : Handle) :
    (readied s h x).folders.printed x.folder =
      some ((s.folders.printed x.folder).getD (.text "")) := by
  rw [readied, Folders.printed, Folders.printed, Folders.revise, Folders.find?_update, if_pos rfl,
    Folders.find?_make, if_pos (Folders.mem_lineage _)]
  cases s.folders.find? x.folder <;> rfl

theorem start_eq (hx : s.handles[h]? = some x) (hmake : x.folder.isMakeable = true)
    (others : Interrupts) : start h others s =
      (Process.launch x.folder >>= attach h x.startupTimeout) others (readied s h x) := by
  unfold start
  rw [handle, (does_need hx).step, if_neg (by rw [hmake]; exact nofun), (does_view _).step,
    (does_change _).step]
  rfl

def attached (s : Sandbox) (h : Nat) (x : Handle) (fs : Folders) : Sandbox :=
  { Process.launched (readied s h x) x.folder true fs with
    handles := (readied s h x).handles.modify h fun x =>
      { x with child := some s.children.length } }

theorem getElem?_attached_handles (hx : s.handles[h]? = some x) (fs : Folders) :
    (attached s h x fs).handles[h]? = some { x with
      port := some (40000 + s.children.length), child := some s.children.length } := by
  refine Table.getElem?_modify_eq_some.mpr ⟨_, Table.getElem?_modify_eq_some.mpr ⟨x, hx, rfl⟩, ?_⟩
  rw [if_pos rfl, if_pos rfl]

theorem getElem?_attached_children (s : Sandbox) (h : Nat) (x : Handle) (fs : Folders) :
    (attached s h x fs).children[s.children.length]? =
      some { script := s.scripts.headD {}, folder := x.folder, alive := true } :=
  List.getElem?_concat_length

theorem sane_attached (hs : s.Sane) (hx : s.handles[h]? = some x) {fs : Folders} (hfs : fs.Proper) :
    (attached s h x fs).Sane := by
  refine (Process.sane_launched (sane_readied hs h x) x.folder true hfs).modifyHandle h
    (fun _ => rfl) fun z c hz hc => .inr ?_
  obtain rfl := Option.some.inj hc
  obtain ⟨w, hw, rfl⟩ := Table.getElem?_modify_eq_some.mp hz
  obtain rfl := Option.some.inj (hx.symm.trans hw)
  refine ⟨_, List.getElem?_concat_length, ?_⟩
  rw [if_pos rfl]

theorem attach_eq (s : Sandbox) (h : Nat) (x : Handle) (fs : Folders) (timeout : Binary64)
    (others : Interrupts) :
    attach h timeout (.ok s.children.length) others
        (Process.launched (readied s h x) x.folder true fs) =
      awaitUp h s.children.length ((Binary64.ofMillis s.clock).add timeout)
        (s.scripts.headD {}).health others (attached s h x fs) := by
  refine ((does_change _).step _ others).trans ?_
  refine ((does_view _).step _ others).trans ?_
  refine ((does_view _).step _ others).trans ?_
  have hpending :
      (((attached s h x fs).children[s.children.length]?).map (·.script.health)).getD [] =
        (s.scripts.headD {}).health := by
    rw [getElem?_attached_children]
    rfl
  exact congrArg (awaitUp h _ _ · others _) hpending

/-- A process that was attached and has come up works behind its handle. -/
theorem started_of_risen (hx : s.handles[h]? = some x) {script : ChildScript} {fs : Folders}
    {t : Sandbox} (hhas : ∀ q, fs.has q = (readied s h x).folders.has q)
    (ht : Risen s.children.length script (attached s h x fs) t) : Started h script s t := by
  obtain ⟨y, hy, halive, hreplies⟩ := ht.process
  have hz := getElem?_attached_handles hx fs
  rw [← ht.handles] at hz
  refine ⟨ht.sane, { ht.tables with }, ⟨_, _, y, hz, rfl, hy, halive, hreplies⟩, fun hx' hz' => ?_⟩
  obtain rfl := Option.some.inj (hx.symm.trans hx')
  obtain rfl := Option.some.inj (hz.symm.trans hz')
  have hmade : (readied s h x).folders.has x.folder = true := by
    rw [readied, Folders.has_revise]
  rw [ht.folders]
  exact ⟨rfl, (hhas x.folder).trans hmade⟩

/-- Starting an interpreter goes as its process and the clock foretell. -/
theorem start_foretold (hs : s.Sane) (hx : s.handles[h]? = some x)
    (hmake : x.folder.isMakeable = true) (others : Interrupts) :
    Foretold h (comeUp (s.scripts.headD {}) x.startupTimeout s.clock) s.scripts.tail
      (Started h (s.scripts.headD {}) s)
      (fun e t =>
        t.folders.printed x.folder =
          some ((s.scripts.headD {}).prints (s.folders.printed x.folder)) ∧
        (e.kind = .initialization → e = cause (s.scripts.headD {}) x.startupTimeout s.clock
          ((s.scripts.headD {}).prints (s.folders.printed x.folder)) t.clock))
      (start h others s) := by
  have hs₁ := sane_readied hs h x
  rw [comeUp, start_eq hx hmake]
  cases hspawn : (s.scripts.headD {}).spawnFailure with
  | some reason =>
      have hx₁ : (readied s h x).handles[h]? =
          some { x with port := some (40000 + s.children.length) } :=
        Table.getElem?_modify_eq_some.mpr ⟨x, hx, by rw [if_pos rfl]⟩
      have hlaunch := Process.does_launch_error (readied s h x) x.folder hspawn
      obtain ⟨hreset, hs₃, -⟩ :=
        does_reset (Process.sane_launched hs₁ x.folder false hs₁.metadata) hx₁
      rw [hlaunch.step]
      refine (congrArg (Foretold h _ _ _ _) (hreset.step _ others)).mpr ?_
      refine ⟨⟨rfl, hs₃, rfl, rfl, _, Table.getElem?_modify_eq_some.mpr ⟨_, hx₁, rfl⟩⟩, ?_,
        fun _ => ?_⟩
      · rw [ChildScript.prints, hspawn]
        exact printed_readied s h x
      · rw [cause, hspawn]
  | none =>
      obtain ⟨fs, hlaunch, hproper, hhas, hprinted⟩ :=
        Process.does_launch (readied s h x) x.folder hspawn
      have hprinted : fs.printed x.folder =
          some ((s.scripts.headD {}).prints (s.folders.printed x.folder)) := by
        rw [ChildScript.prints, hspawn]
        exact hprinted _ (printed_readied s h x)
      have hx₂ := getElem?_attached_handles hx fs
      rw [hlaunch.step]
      refine (congrArg (Foretold h _ _ _ _) (attach_eq s h x fs x.startupTimeout others)).mpr ?_
      refine (awaitUp_foretold (sane_attached hs hx (hproper hs₁.metadata)) hx₂
        (getElem?_attached_children s h x fs) ⟨rfl, rfl, rfl, rfl, rfl⟩ others).mono
          (fun t ht => started_of_risen hx hhas ht) fun e t ht => ⟨?_, fun hkind => ?_⟩
      · rw [ht.1]
        exact hprinted
      · refine (ht.2 hkind).trans ?_
        rw [cause, hspawn]
        have hread : fs.processLogText x.folder =
            ((s.scripts.headD {}).prints (s.folders.printed x.folder)).read := by
          show ((fs.printed x.folder).map Content.read).getD "" = _
          rw [hprinted]
          rfl
        exact congrArg (givenUp _ _ · _) hread

def created (s : Sandbox) (x : Handle) : Sandbox := { s with handles := s.handles ++ [x] }

theorem sane_created (hs : s.Sane) {x : Handle} (hx : x.child = none) : (created s x).Sane :=
  hs.addHandle hx

theorem getElem?_created (s : Sandbox) (x : Handle) :
    (created s x).handles[s.handles.length]? = some x :=
  List.getElem?_concat_length

end Interpreter

namespace Registry

/-- The first process of a list that comes up, when it is tried so often. -/
def comesUp (timeout : Binary64) : (attempts : Nat) → List ChildScript → (now : Int) →
    Option ChildScript
  | 0, _, _ => none
  | attempts + 1, scripts, now =>
    match Interpreter.comeUp (scripts.headD {}) timeout now with
    | (none, _) => some (scripts.headD {})
    | (some kind, later) =>
      if kind = .initialization then comesUp timeout attempts scripts.tail later else none

/-- Why none of so many processes comes up, and when the last one is given up, in a folder in which
something was printed. -/
def downfall (timeout : Binary64) : (attempts : Nat) → List ChildScript → (now : Int) →
    (printed : Option Content) → Failure → Failure × Int
  | 0, _, now, _, last => (last, now)
  | attempts + 1, scripts, now, printed, _ =>
    let script := scripts.headD {}
    let later := (Interpreter.comeUp script timeout now).2
    downfall timeout attempts scripts.tail later (some (script.prints printed))
      (Interpreter.cause script timeout now (script.prints printed) later)

/-- A session that nobody holds, with its live interpreter. -/
structure Attached (s : Sandbox) (r : Nat) (x : Record) (c : Nat) (y : Child) : Prop where
  record : s.records[r]? = some x
  ready : x.state = .ready
  free : x.locked = false
  handle : ∃ z, s.handles[x.handle]? = some z ∧ z.child = some c
  child : s.children[c]? = some y
  alive : y.alive = true

/-- A new session whose interpreter has come up: it is not registered yet, and it has a folder. -/
def NewSession (script : ChildScript) (p : Path) (result : Except Failure Nat × Sandbox) : Prop :=
  ∃ r t x c y, result = (.ok r, t) ∧ t.Sane ∧ Attached t r x c y ∧
    y.script.replies = script.replies ∧ x.folder = p ∧ t.folders.has p = true

/-- A session is tried to be started once, and then as often as is left. -/
theorem startTwice_succ {p : Path} {timeout : Binary64} {others : Interrupts}
    {result : Except Failure Unit} {t : Sandbox} (hstart : Interpreter.start s.handles.length others
      (Interpreter.created s { folder := p, startupTimeout := timeout }) = (result, t))
    {key : String} {attempts : Nat} {last : Failure} :
    startTwice p timeout key (attempts + 1) last others s = match result with
      | .ok _ => (.ok t.records.length, { t with records := t.records ++
          [{ handle := s.handles.length, folder := p, state := .ready, lastUsed := t.clock }] })
      | .error e => if e.kind = .initialization then
          (Interpreter.reset s.handles.length >>= fun _ =>
            startTwice p timeout key attempts e) others t
        else (.error e, t) := by
  have hcreate : (Interpreter.create p timeout).Does s s.handles.length
      (Interpreter.created s { folder := p, startupTimeout := timeout }) := fun _ => rfl
  have houtcome : Op.outcome (Interpreter.start s.handles.length) others
      (Interpreter.created s { folder := p, startupTimeout := timeout }) = (.ok result, t) := by
    unfold Op.outcome
    rw [hstart]
  rw [startTwice, hcreate.step, bind_of_eq_ok houtcome]
  cases result with
  | ok _ => rfl
  | error e =>
      dsimp only
      split <;> rfl

theorem newSession_of_started {script : ChildScript} {x : Handle}
    (h : Interpreter.Started s.handles.length script (Interpreter.created s x) t) :
    NewSession script x.folder (.ok t.records.length, { t with records := t.records ++
      [{ handle := s.handles.length, folder := x.folder, state := .ready
         lastUsed := t.clock }] }) := by
  obtain ⟨z, c, y, hz, hc, hy, halive, hreplies⟩ := h.process
  obtain ⟨hfolder, hhas⟩ := h.folder (Interpreter.getElem?_created s x) hz
  exact ⟨_, _, _, c, y, rfl, h.sane.addRecord nofun ⟨z, hz, hfolder⟩,
    ⟨List.getElem?_concat_length, rfl, rfl, ⟨z, hz, hc⟩, hy, halive⟩, hreplies, rfl, hhas⟩

theorem startTwice_foretold (hs : s.Sane) {p : Path} (hmake : p.isMakeable = true)
    (timeout : Binary64) (key : String) (attempts : Nat) (last : Failure) (others : Interrupts) :
    match comesUp timeout attempts s.scripts s.clock with
    | some script => NewSession script p (startTwice p timeout key attempts last others s)
    | none => ∃ e t, startTwice p timeout key attempts last others s = (.error e, t) ∧
      ((∀ x ∈ s.scripts, x.Plain) → ∃ cause, e = .startFailed key cause.message ∧ t.Sane ∧
        downfall timeout attempts s.scripts s.clock (s.folders.printed p) last =
          (cause, t.clock)) := by
  induction attempts generalizing s last with
  | zero => exact ⟨_, _, rfl, fun _ => ⟨last, rfl, hs, rfl⟩⟩
  | succ attempts ih =>
      let x : Handle := { folder := p, startupTimeout := timeout }
      have hstart := Interpreter.start_foretold (Interpreter.sane_created hs (x := x) rfl)
        (Interpreter.getElem?_created s x) hmake others
      change Interpreter.Foretold _ (Interpreter.comeUp (s.scripts.headD {}) timeout s.clock)
        s.scripts.tail _ _ _ at hstart
      rw [comesUp]
      -- What is foretold and what happens agree, so that two of the four cases are empty.
      rcases hcome : Interpreter.comeUp (s.scripts.headD {}) timeout s.clock with
        ⟨_ | kind, later⟩ <;>
        rcases hresult : Interpreter.start s.handles.length others (Interpreter.created s x) with
          ⟨e | _, t⟩ <;>
        rw [hcome, hresult] at hstart <;> rw [startTwice_succ hresult]
      · exact hstart.elim
      · exact newSession_of_started hstart
      · obtain ⟨hstart, hprinted, hcause⟩ := hstart
        dsimp only
        by_cases hkind : kind = .initialization
        · obtain ⟨x, hx⟩ := hstart.handle
          obtain ⟨hreset, hs₂, -⟩ := Interpreter.does_reset hstart.sane hx
          have hscripts : s.scripts.tail = t.scripts := hstart.scripts.symm
          rw [if_pos (hstart.kind.trans hkind), if_pos hkind, hreset.step, ← hstart.clock, hscripts]
          have hagain := ih hs₂ e
          dsimp only at hagain
          -- Where none comes up, the downfall goes on from that of this process.
          rcases hup : comesUp timeout attempts t.scripts t.clock with _ | script <;>
            rw [hup] at hagain
          · obtain ⟨e', t', hfails, hwhy⟩ := hagain
            refine ⟨e', t', hfails, fun hplain => ?_⟩
            obtain ⟨cause, he, ht', hdownfall⟩ := hwhy fun x hx => hplain x
              (List.mem_of_mem_tail (hscripts ▸ hx))
            refine ⟨cause, he, ht', ?_⟩
            rw [downfall, hcome, hscripts, ← hstart.clock]
            rw [hcause (hstart.kind.trans hkind)] at hdownfall
            exact (congrArg (downfall timeout attempts t.scripts t.clock · _) hprinted).symm.trans
              hdownfall
          · exact hagain
        · rw [if_neg hkind, if_neg (mt hstart.kind.symm.trans hkind)]
          refine ⟨e, t, rfl, fun hplain => absurd (Interpreter.comeUp_plain ?_ hcome) hkind⟩
          cases hscripts : s.scripts with
          | nil => exact nofun
          | cons x rest => exact hplain x (hscripts ▸ List.mem_cons_self)
      · exact hstart.elim

theorem startTwice_unmakeable (s : Sandbox) {p : Path} (hmake : p.isMakeable = false)
    (timeout : Binary64) (key : String) (attempts : Nat) (last : Failure) (others : Interrupts) :
    ∃ e t, startTwice p timeout key attempts last others s = (.error e, t) := by
  cases attempts with
  | zero => exact ⟨_, _, rfl⟩
  | succ attempts =>
      refine ⟨.other "OSError", { s with
        handles := s.handles ++ [{ folder := p, startupTimeout := timeout }] }, ?_⟩
      simp [startTwice, Interpreter.create, Interpreter.start, bind_apply, Op.view, Op.change,
        Op.outcome, handle, need, hmake, Op.fail, Failure.kind]

/-- A session can be started exactly when its key names a folder that can be made and one of two
processes comes up. -/
theorem start_foretold (hs : s.Sane) (key : String) (others : Interrupts) :
    (∃ p script, folderOf s.setup key = .ok p ∧ p.isMakeable = true ∧
      comesUp s.setup.startupTimeout 2 s.scripts s.clock = some script ∧
      NewSession script p (start key others s)) ∨
    (∀ p script, folderOf s.setup key = .ok p → p.isMakeable = true →
      comesUp s.setup.startupTimeout 2 s.scripts s.clock ≠ some script) ∧
      ∃ e t, start key others s = (.error e, t) := by
  rw [start, (does_view _).step]
  cases hfolder : folderOf s.setup key with
  | error e => exact .inr ⟨nofun, e, s, rfl⟩
  | ok p =>
      have hof : (Op.ofExcept (.ok p : Except Failure Path)).Does s p s := does_pure p
      rw [hof.step]
      cases hmake : p.isMakeable with
      | false =>
          refine .inr ⟨fun q script hq hmake' => ?_, startTwice_unmakeable s hmake _ _ _ _ _⟩
          obtain rfl := Except.ok.inj hq
          exact absurd (hmake.symm.trans hmake') nofun
      | true =>
          have hforetold := startTwice_foretold hs hmake s.setup.startupTimeout key 2
            .notInitialized others
          cases hcomes : comesUp s.setup.startupTimeout 2 s.scripts s.clock with
          | some script =>
              rw [hcomes] at hforetold
              exact .inl ⟨p, script, rfl, hmake, rfl, hforetold⟩
          | none =>
              rw [hcomes] at hforetold
              obtain ⟨e, t, hfails, -⟩ := hforetold
              exact .inr ⟨nofun, e, t, hfails⟩

/-- Whether a session can be started does not depend on the sessions, processes and folders that
there are. -/
theorem newSession_of_start (hs : s.Sane) {key : String} {others : Interrupts} {r : Nat}
    {t s' : Sandbox} (h : start key others s = (.ok r, t)) (hs' : s'.Sane)
    (hsetup : s'.setup = s.setup) (hscripts : s'.scripts = s.scripts) (hclock : s'.clock = s.clock)
    (others' : Interrupts) :
    ∃ p script, folderOf s.setup key = .ok p ∧
      comesUp s.setup.startupTimeout 2 s.scripts s.clock = some script ∧
      NewSession script p (start key others' s') := by
  obtain ⟨p, script, hp, hmake, hcomes, -⟩ | ⟨-, e, u, he⟩ := start_foretold hs key others
  · have hforetold := start_foretold hs' key others'
    rw [hsetup, hscripts, hclock] at hforetold
    obtain ⟨p', script', hp', -, hcomes', hnew⟩ | ⟨hnot, -⟩ := hforetold
    · exact ⟨p', script', hp', hcomes', hnew⟩
    · exact absurd hcomes (hnot p script hp hmake)
  · exact absurd (h.symm.trans he) nofun

end Registry

end Rerun
