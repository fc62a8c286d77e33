import Rerun.Proofs.Sandbox.Launches

/-!
What starting an interpreter does to the tables of handles and of processes: each start adds one
handle and at most one process, and waiting for the process, or giving it up, touches nothing but
these two (`Op.Tends`). All that there was before stays as it is (`Sandbox.Grows`).
-/

namespace Rerun

open Sandbox Op

variable {s t u : Sandbox} {h c : Nat}

/-! ### One handle and its process -/

/-- A handle leads to no other process than this one. -/
def Sandbox.LeadsOnly (s : Sandbox) (h c : Nat) : Prop :=
  ∀ x d, s.handles[h]? = some x → x.child = some d → d = c

/-- Of the handles and the processes at most one handle and its process have changed. -/
structure Sandbox.Tended (h c : Nat) (s t : Sandbox) : Prop where
  handles : ∃ f, t.handles = s.handles.modify h f
  children : ∃ f, t.children = s.children.modify c f
  leadsOnly : t.LeadsOnly h c

namespace Sandbox.Tended

theorem refl (hs : s.LeadsOnly h c) : Tended h c s s :=
  ⟨⟨id, (List.modify_id h _).symm⟩, ⟨id, (List.modify_id c _).symm⟩, hs⟩

theorem trans (ht : Tended h c s t) (hu : Tended h c t u) : Tended h c s u := by
  obtain ⟨f, hf⟩ := ht.handles
  obtain ⟨f', hf'⟩ := hu.handles
  obtain ⟨g, hg⟩ := ht.children
  obtain ⟨g', hg'⟩ := hu.children
  rw [hf, List.modify_modify_eq] at hf'
  rw [hg, List.modify_modify_eq] at hg'
  exact ⟨⟨_, hf'⟩, ⟨_, hg'⟩, hu.leadsOnly⟩

end Sandbox.Tended

namespace Op

variable {α β : Type}

/-- An operation that changes of the handles and the processes at most one handle and its
process. -/
def Tends (h c : Nat) (x : Op α) : Prop :=
  ∀ (others : Interrupts) (s : Sandbox), s.LeadsOnly h c → Tended h c s (x others s).2

namespace Tends

theorem pure (a : α) : Tends h c (pure a) := fun _ _ hs => .refl hs

theorem fail (e : Failure) : Tends h c (Op.fail e : Op α) := fun _ _ hs => .refl hs

theorem ofExcept (r : Except Failure α) : Tends h c (Op.ofExcept r) := by
  cases r with
  | ok a => exact .pure a
  | error e => exact .fail e

theorem view (f : Sandbox → α) : Tends h c (Op.view f) := fun _ _ hs => .refl hs

theorem change {f : Sandbox → Sandbox}
    (hf : ∀ s, (f s).handles = s.handles ∧ (f s).children = s.children) :
    Tends h c (Op.change f) := by
  intro others s hs
  obtain ⟨hhandles, hchildren⟩ := hf s
  refine ⟨⟨id, hhandles.trans (List.modify_id h _).symm⟩,
    ⟨id, hchildren.trans (List.modify_id c _).symm⟩, fun x d hx => hs x d ?_⟩
  rw [← hhandles]
  exact hx

theorem bind {x : Op α} {f : α → Op β} (hx : Tends h c x) (hf : ∀ a, Tends h c (f a)) :
    Tends h c (x >>= f) := by
  intro others s hs
  have hfirst := hx others s hs
  rw [bind_apply]
  rcases hr : x others s with ⟨e | a, t⟩ <;> rw [hr] at hfirst
  · exact hfirst
  · exact hfirst.trans (hf a others t hfirst.leadsOnly)

theorem need {find : Sandbox → Option α} {f : α → Op β} (P : α → Prop)
    (hfind : ∀ s a, s.LeadsOnly h c → find s = some a → P a) (hf : ∀ a, P a → Tends h c (f a)) :
    Tends h c (Sandbox.need find >>= f) := by
  intro others s hs
  rw [bind_apply]
  cases hx : find s with
  | none =>
      have hmissing : Sandbox.need find others s = (.error (.other "KeyError"), s) := by
        rw [Sandbox.need, hx]
      rw [hmissing]
      exact .refl hs
  | some a =>
      rw [does_need hx others]
      exact hf a (hfind s a hs hx) others s hs

theorem handle {f : Handle → Op β} (hf : ∀ x, (∀ d, x.child = some d → d = c) → Tends h c (f x)) :
    Tends h c (Sandbox.handle h >>= f) :=
  need (fun x => ∀ d, x.child = some d → d = c) (fun _ x hs hx d hd => hs x d hx hd) hf

theorem setChild (f : Child → Child) : Tends h c (Sandbox.setChild c f) :=
  fun _ _ hs => ⟨⟨id, (List.modify_id h _).symm⟩, ⟨f, rfl⟩, hs⟩

theorem setHandle {f : Handle → Handle}
    (hf : ∀ x d, (f x).child = some d → x.child = some d ∨ d = c) :
    Tends h c (Sandbox.setHandle h f) := by
  refine fun others s hs => ⟨⟨f, rfl⟩, ⟨id, (List.modify_id c _).symm⟩, fun x d hx hd => ?_⟩
  obtain ⟨y, hy, rfl⟩ := Table.getElem?_modify_eq_some.mp hx
  rw [if_pos rfl] at hd
  exact (hf y d hd).elim (hs y d hy) id

theorem ite {p : Prop} [Decidable p] {x y : Op α} (hx : Tends h c x) (hy : Tends h c y) :
    Tends h c (if p then x else y) := by
  split
  · exact hx
  · exact hy

end Tends

end Op

namespace Process

theorem tends_poll (h c : Nat) : (poll c).Tends h c :=
  .need (fun _ => True) (fun _ _ _ _ => trivial) fun _ _ => .bind (.setChild _) fun _ => .pure _

theorem tends_health (h c : Nat) : (health c).Tends h c := by
  refine .need (fun _ => True) (fun _ _ _ _ => trivial) fun y _ => ?_
  split
  · exact .bind (.setChild _) fun _ => .pure _
  · exact .pure _

end Process

namespace Interpreter

theorem tends_kill (h c : Nat) : (kill h).Tends h c := by
  refine .handle fun x hx => ?_
  cases hc : x.child with
  | none => exact .pure _
  | some d =>
      obtain rfl := hx d hc
      exact .bind (Process.tends_poll h d) fun alive => .ite (.setChild _) (.pure _)

theorem tends_reset (h c : Nat) : (reset h).Tends h c :=
  .bind (tends_kill h c) fun _ => .setHandle nofun

theorem tends_probe (h c : Nat) : (probe h).Tends h c := by
  refine .handle fun x hx => ?_
  cases hc : x.child with
  | none => exact .pure _
  | some d =>
      obtain rfl := hx d hc
      refine .bind (Process.tends_poll h d) fun alive => .ite (.pure _) ?_
      refine .bind (Process.tends_health h d) fun answer => ?_
      split
      · exact .pure _
      · exact .pure _

theorem tends_askUp (h c : Nat) (deadline : Binary64) : (askUp h c deadline).Tends h c := by
  refine .handle fun x _ => .bind (.view _) fun now => .ite ?_ ?_
  · exact .bind (tends_reset h c) fun _ => .fail _
  · refine .bind (Process.tends_poll h c) fun alive => .ite ?_ (Process.tends_health h c)
    exact .bind (.view _) fun _ => .bind (tends_reset h c) fun _ => .fail _

theorem tends_awaitUp (h c : Nat) (deadline : Binary64) (pending : List Health) :
    (awaitUp h c deadline pending).Tends h c := by
  induction pending with
  | nil =>
      refine .bind (tends_askUp h c deadline) fun answer => ?_
      split
      · exact .ofExcept _
      · exact .pure _
  | cons a pending ih =>
      refine .bind (tends_askUp h c deadline) fun answer => ?_
      split
      · exact .ofExcept _
      · exact .bind (.change fun _ => ⟨rfl, rfl⟩) fun _ => ih

/-! ### Starts -/

structure Added (s t : Sandbox) : Prop where
  handles : ∃ y, t.handles = s.handles ++ [y]
  children : t.children = s.children ∨ ∃ y, t.children = s.children ++ [y]
  leadsOnly : t.LeadsOnly s.handles.length s.children.length

theorem Added.tended (ha : Added s t) (ht : Tended s.handles.length s.children.length t u) :
    Added s u := by
  obtain ⟨y, hy⟩ := ha.handles
  obtain ⟨f, hf⟩ := ht.handles
  obtain ⟨g, hg⟩ := ht.children
  refine ⟨⟨f y, ?_⟩, ?_, ht.leadsOnly⟩
  · rw [hf, hy, Table.modify_concat]
  · obtain hchildren | ⟨z, hz⟩ := ha.children
    · rw [hchildren, List.modify_eq_self (Nat.le_refl _)] at hg
      exact .inl hg
    · rw [hz, Table.modify_concat] at hg
      exact .inr ⟨_, hg⟩

theorem added_created {x : Handle} (hx : x.child = none) : Added s (created s x) where
  handles := ⟨x, rfl⟩
  children := .inl rfl
  leadsOnly y d hy hd := by
    obtain rfl := Option.some.inj ((getElem?_created s x).symm.trans hy)
    exact absurd (hx.symm.trans hd) nofun

theorem Added.launched {p : Path} {alive : Bool} {fs : Folders} (ha : Added s t)
    (hchildren : t.children = s.children) : Added s (Process.launched t p alive fs) where
  handles := ha.handles
  children := .inr ⟨_, congrArg (· ++ _) hchildren⟩
  leadsOnly := ha.leadsOnly

theorem start_added {x : Handle} (hx : x.child = none) (others : Interrupts) :
    Added s (start s.handles.length others (created s x)).2 := by
  have hx₁ := getElem?_created s x
  have hcreated := added_created (s := s) hx
  cases hmake : x.folder.isMakeable with
  | false =>
      have hhandle : (handle s.handles.length).Does (created s x) x (created s x) := does_need hx₁
      have hstart : start s.handles.length others (created s x) =
          (.error (.other "OSError"), created s x) := by
        rw [start, hhandle.step, hmake]
        rfl
      rw [hstart]
      exact hcreated
  | true =>
      rw [start_eq hx₁ hmake]
      have hready : Added s (readied (created s x) s.handles.length x) :=
        hcreated.tended ⟨⟨_, rfl⟩, ⟨id, (List.modify_id _ _).symm⟩, fun y d hy hd => by
          obtain ⟨z, hz, rfl⟩ := Table.getElem?_modify_eq_some.mp hy
          rw [if_pos rfl] at hd
          exact hcreated.leadsOnly z d hz hd⟩
      cases hspawn : (s.scripts.headD {}).spawnFailure with
      | some reason =>
          have hlaunch := Process.does_launch_error (readied (created s x) s.handles.length x)
            x.folder hspawn
          rw [hlaunch.step]
          have hlaunched : Added s (Process.launched (readied (created s x) s.handles.length x)
              x.folder false (readied (created s x) s.handles.length x).folders) :=
            hready.launched rfl
          exact hlaunched.tended (Tends.bind (tends_reset _ _) (fun _ => .fail _) others _
            hlaunched.leadsOnly)
      | none =>
          obtain ⟨fs, hlaunch, -⟩ := Process.does_launch
            (readied (created s x) s.handles.length x) x.folder hspawn
          rw [hlaunch.step]
          have hlaunched : Added s (Process.launched (readied (created s x) s.handles.length x)
              x.folder true fs) :=
            hready.launched rfl
          refine hlaunched.tended (Tends.bind (.setHandle fun _ d hd => .inr ?_) (fun _ =>
            .bind (.view _) fun _ => .bind (.view _) fun _ => tends_awaitUp _ _ _ _) others _
              hlaunched.leadsOnly)
          exact (Option.some.inj hd).symm

end Interpreter

/-- So many interpreters were started at most, and all that there was stays as it is. -/
structure Sandbox.Grows (n : Nat) (s t : Sandbox) : Prop where
  handles : ∃ xs, t.handles = s.handles ++ xs ∧ xs.length ≤ n
  children : ∃ ys, t.children = s.children ++ ys ∧ ys.length ≤ n

namespace Sandbox.Grows

variable {n m : Nat}

theorem refl (s : Sandbox) : s.Grows 0 s :=
  ⟨⟨[], (List.append_nil _).symm, Nat.le_refl _⟩, ⟨[], (List.append_nil _).symm, Nat.le_refl _⟩⟩

theorem trans (hg : s.Grows n t) (hg' : t.Grows m u) : s.Grows (n + m) u := by
  obtain ⟨xs, hxs, hn⟩ := hg.handles
  obtain ⟨xs', hxs', hm⟩ := hg'.handles
  obtain ⟨ys, hys, hn'⟩ := hg.children
  obtain ⟨ys', hys', hm'⟩ := hg'.children
  rw [hxs, List.append_assoc] at hxs'
  rw [hys, List.append_assoc] at hys'
  refine ⟨⟨_, hxs', ?_⟩, ⟨_, hys', ?_⟩⟩
  · rw [List.length_append]
    exact Nat.add_le_add hn hm
  · rw [List.length_append]
    exact Nat.add_le_add hn' hm'

theorem mono (hg : s.Grows n t) (hnm : n ≤ m) : s.Grows m t := by
  obtain ⟨xs, hxs, hn⟩ := hg.handles
  obtain ⟨ys, hys, hn'⟩ := hg.children
  exact ⟨⟨xs, hxs, Nat.le_trans hn hnm⟩, ⟨ys, hys, Nat.le_trans hn' hnm⟩⟩

theorem of_added (ha : Interpreter.Added s t) : s.Grows 1 t := by
  obtain ⟨y, hy⟩ := ha.handles
  refine ⟨⟨[y], hy, Nat.le_refl _⟩, ?_⟩
  obtain hchildren | ⟨z, hz⟩ := ha.children
  · exact ⟨[], hchildren.trans (List.append_nil _).symm, Nat.zero_le _⟩
  · exact ⟨[z], hz, Nat.le_refl _⟩

theorem handle (hg : s.Grows n t) {i : Nat} {x : Handle} (hx : s.handles[i]? = some x) :
    t.handles[i]? = some x := by
  obtain ⟨xs, hxs, -⟩ := hg.handles
  rw [hxs, List.getElem?_append_left (List.getElem?_eq_some_iff.mp hx).1]
  exact hx

theorem child (hg : s.Grows n t) {y : Child} (hy : s.children[c]? = some y) :
    t.children[c]? = some y := by
  obtain ⟨ys, hys, -⟩ := hg.children
  rw [hys, List.getElem?_append_left (List.getElem?_eq_some_iff.mp hy).1]
  exact hy

theorem lengths (hg : s.Grows n t) : t.handles.length ≤ s.handles.length + n ∧
    t.children.length ≤ s.children.length + n := by
  obtain ⟨xs, hxs, hn⟩ := hg.handles
  obtain ⟨ys, hys, hn'⟩ := hg.children
  rw [hxs, hys, List.length_append, List.length_append]
  exact ⟨Nat.add_le_add_left hn _, Nat.add_le_add_left hn' _⟩

end Sandbox.Grows

namespace Registry

variable {others : Interrupts} {key : String}

/-- A session was started: an interpreter has come up, and a record was added for it. -/
structure Launched (others : Interrupts) (s : Sandbox) (r : Nat) (x : Record) (t : Sandbox) :
    Prop where
  index : r = s.records.length
  ready : x.state = .ready
  start : ∃ u v, Interpreter.start x.handle others u = (.ok (), v) ∧
    t = { v with records := v.records ++ [x] }

/-- Every start adds an interpreter, and the last one is that of the record, if there is one. -/
theorem startTwice_grows (folder : Path) (timeout : Binary64) (attempts : Nat) (last : Failure) :
    s.Grows attempts (startTwice folder timeout key attempts last others s).2 ∧
      ∀ r, (startTwice folder timeout key attempts last others s).1 = .ok r →
        ∃ x, Launched others s r x (startTwice folder timeout key attempts last others s).2 := by
  induction attempts generalizing s last with
  | zero => exact ⟨.refl s, fun r hr => by cases hr⟩
  | succ attempts ih =>
      let x : Handle := { folder, startupTimeout := timeout }
      have hadded := Interpreter.start_added (s := s) (x := x) rfl others
      rcases hstart : Interpreter.start s.handles.length others (Interpreter.created s x) with
        ⟨result, t⟩
      rw [hstart] at hadded
      have hrecords : t.records = s.records :=
        ((Interpreter.pervades_onProcesses.start s.handles.length).of_eq hstart).records
      rw [startTwice_succ hstart]
      cases result with
      | ok _ =>
          refine ⟨(Grows.mono { Grows.of_added hadded with } (Nat.le_add_left 1 attempts)),
            fun r hr => ⟨
              { handle := s.handles.length, folder, state := .ready, lastUsed := t.clock },
              ?_, rfl, _, t, hstart, rfl⟩⟩
          rw [← hrecords]
          exact (Except.ok.inj hr).symm
      | error e =>
          dsimp only
          split
          · have hreset := hadded.tended (Interpreter.tends_reset _ _ others t hadded.leadsOnly)
            rcases hr : Interpreter.reset s.handles.length others t with ⟨e' | _, u⟩ <;>
              rw [hr] at hreset
            · rw [bind_apply, hr]
              exact ⟨(Grows.of_added hreset).mono (Nat.le_add_left 1 attempts),
                fun r hr => by cases hr⟩
            · have hrecords' : u.records = s.records :=
                ((Interpreter.pervades_onProcesses.reset _).of_eq hr).records.trans hrecords
              obtain ⟨hgrows, hlast⟩ := ih (s := u) e
              rw [bind_of_eq_ok hr]
              refine ⟨((Grows.of_added hreset).trans hgrows).mono (Nat.le_of_eq (Nat.add_comm _ _)),
                fun r hr => ?_⟩
              obtain ⟨y, hy⟩ := hlast r hr
              exact ⟨y, { hy with index := hy.index.trans (congrArg List.length hrecords') }⟩
          · exact ⟨(Grows.of_added hadded).mono (Nat.le_add_left 1 attempts),
              fun r hr => by cases hr⟩

end Registry

end Rerun
