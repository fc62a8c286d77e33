import Rerun.Grading
import Rerun.Proofs.Sandbox.Answers

/-!
What the session of one key does to everything else. However it is started, used and taken down, and
whether that succeeds or fails, the records, handles and processes that there were stay as they are:
new ones come after them, and only these are changed (`Sandbox.Beside`). So it is with an operation
that starts nothing else and uses nothing else, while nobody else acts (`Op.Beside`).
-/

namespace Rerun

open Sandbox

namespace Table

variable {α : Type} {P : α → Prop} {xs ys : List α} {x y : α} {i : Nat}

/-- A list has come of another one: apart from what is own, it is that list still, and what is own
is of a kind. -/
structure Evolves (own : Nat → Prop) (P : α → Prop) (xs ys : List α) : Prop where
  length_le : xs.length ≤ ys.length
  stays {i : Nat} : ¬ own i → ys[i]? = xs[i]?
  owned {i : Nat} {y : α} : own i → ys[i]? = some y → P y

namespace Evolves

variable {own : Nat → Prop}

theorem refl (h : ∀ i y, own i → xs[i]? = some y → P y) : Evolves own P xs xs :=
  ⟨Nat.le_refl _, fun _ => rfl, h _ _⟩

theorem concat (h : Evolves own P xs ys) (hown : ∀ {i}, xs.length ≤ i → own i) (hy : P y) :
    Evolves own P xs (ys ++ [y]) := by
  refine ⟨?_, fun {i} hi => ?_, fun {i z} hi hz => ?_⟩
  · rw [List.length_append]
    exact Nat.le_trans h.length_le (Nat.le_add_right _ _)
  · have hlt : i < xs.length := Nat.lt_of_not_le fun hle => hi (hown hle)
    rw [List.getElem?_append_left (Nat.lt_of_lt_of_le hlt h.length_le)]
    exact h.stays hi
  · by_cases hlt : i < ys.length
    · rw [List.getElem?_append_left hlt] at hz
      exact h.owned hi hz
    · rw [List.getElem?_append_right (Nat.le_of_not_lt hlt)] at hz
      rw [List.mem_singleton.mp (List.mem_of_getElem? hz)]
      exact hy

theorem modify (h : Evolves own P xs ys) (hi : own i) {f : α → α} (hf : ∀ z, P z → P (f z)) :
    Evolves own P xs (ys.modify i f) := by
  refine ⟨?_, fun {j} hj => ?_, fun {j y} hj hy => ?_⟩
  · rw [List.length_modify]
    exact h.length_le
  · rw [List.getElem?_modify_ne _ _ (by rintro rfl; exact hj hi)]
    exact h.stays hj
  · obtain ⟨z, hz, rfl⟩ := getElem?_modify_eq_some.mp hy
    have hP := h.owned hj hz
    split
    · exact hf z hP
    · exact hP

end Evolves

end Table

/-- What the session of a key has for its own: records, handles and processes of a state, and all
that come after them. -/
structure Sandbox.Own (b : Sandbox) where
  record : Nat → Prop
  handle : Nat → Prop
  child : Nat → Prop
  records {i : Nat} : b.records.length ≤ i → record i
  handles {i : Nat} : b.handles.length ≤ i → handle i
  children {i : Nat} : b.children.length ≤ i → child i

namespace Sandbox.Own

def new (b : Sandbox) : b.Own :=
  ⟨(b.records.length ≤ ·), (b.handles.length ≤ ·), (b.children.length ≤ ·), id, id, id⟩

/-- The session of a key, if there is one, and all that is still to come. -/
def of (b : Sandbox) (key : String) : b.Own where
  record i := b.sessions.lookup key = some i ∨ b.records.length ≤ i
  handle i := (∃ r x, b.sessions.lookup key = some r ∧ b.records[r]? = some x ∧ x.handle = i) ∨
    b.handles.length ≤ i
  child i := (∃ r x w, b.sessions.lookup key = some r ∧ b.records[r]? = some x ∧
    b.handles[x.handle]? = some w ∧ w.child = some i) ∨ b.children.length ≤ i
  records := .inr
  handles := .inr
  children := .inr

/-- A state is another one but for the session of a key, which works in a folder with what is its
own. -/
structure Beside {b : Sandbox} (o : b.Own) (key : String) (p : Path) (s : Sandbox) : Prop where
  setup : s.setup = b.setup
  byInputs : s.byInputs = b.byInputs
  drawnIds : s.drawnIds = b.drawnIds
  scripts : s.scripts <:+ b.scripts
  remoteScript : s.remoteScript <:+ b.remoteScript
  remoteClosed : s.remoteClosed = b.remoteClosed
  sessions {k : String} : k ≠ key → s.sessions.lookup k = b.sessions.lookup k
  session {r : Nat} : s.sessions.lookup key = some r → o.record r
  records : Table.Evolves o.record (fun x => o.handle x.handle ∧ x.folder = p) b.records s.records
  handles : Table.Evolves o.handle (fun x => x.folder = p ∧ ∀ c, x.child = some c → o.child c)
    b.handles s.handles
  children : Table.Evolves o.child (fun y => y.folder = p) b.children s.children
  folders : Folders.Spares p b.folders s.folders

end Sandbox.Own

variable {b s : Sandbox} {o : b.Own} {key : String} {p : Path}

theorem Sandbox.Own.Beside.new (b : Sandbox) {key : String} (hkey : b.sessions.lookup key = none)
    (p : Path) : (Own.new b).Beside key p b where
  setup := rfl
  byInputs := rfl
  drawnIds := rfl
  scripts := List.suffix_rfl
  remoteScript := List.suffix_rfl
  remoteClosed := rfl
  sessions _ := rfl
  session h := absurd (hkey.symm.trans h) nofun
  records := .refl fun _ _ hi hx => absurd hx (by simp [List.getElem?_eq_none hi])
  handles := .refl fun _ _ hi hx => absurd hx (by simp [List.getElem?_eq_none hi])
  children := .refl fun _ _ hi hx => absurd hx (by simp [List.getElem?_eq_none hi])
  folders := .refl _ _

theorem Sandbox.Own.Beside.of (hb : b.Sane) (hp : ∀ {r : Nat} {x : Record},
    b.sessions.lookup key = some r → b.records[r]? = some x → x.folder = p) :
    (Own.of b key).Beside key p b where
  setup := rfl
  byInputs := rfl
  drawnIds := rfl
  scripts := List.suffix_rfl
  remoteScript := List.suffix_rfl
  remoteClosed := rfl
  sessions _ := rfl
  session := .inl
  records := .refl fun i y hi hy => by
    obtain hr | hi := hi
    · exact ⟨.inl ⟨i, y, hr, hy, rfl⟩, hp hr hy⟩
    · exact absurd hy (by simp [List.getElem?_eq_none hi])
  handles := .refl fun i y hi hy => by
    obtain ⟨r, x, hr, hx, rfl⟩ | hi := hi
    · obtain ⟨-, w, hw, hfolder⟩ := hb.record hx
      obtain rfl := Option.some.inj (hw.symm.trans hy)
      exact ⟨hfolder.trans (hp hr hx), fun c hc => .inl ⟨r, x, w, hr, hx, hw, hc⟩⟩
    · exact absurd hy (by simp [List.getElem?_eq_none hi])
  children := .refl fun i y hi hy => by
    obtain ⟨r, x, w, hr, hx, hw, hc⟩ | hi := hi
    · obtain ⟨-, w', hw', hfolder⟩ := hb.record hx
      obtain rfl := Option.some.inj (hw.symm.trans hw')
      obtain ⟨z, hz, hsame⟩ := hb.handle hw hc
      obtain rfl := Option.some.inj (hz.symm.trans hy)
      exact hsame.trans (hfolder.trans (hp hr hx))
    · exact absurd hy (by simp [List.getElem?_eq_none hi])
  folders := .refl _ _

namespace Sandbox.Own.Beside

variable (h : o.Beside key p s)

include h

theorem setChild {i : Nat} (hi : o.child i) {f : Child → Child}
    (hf : ∀ y, (f y).folder = y.folder) :
    o.Beside key p { s with children := s.children.modify i f } :=
  { h with children := h.children.modify hi fun y hy => (hf y).trans hy }

theorem setHandle {i : Nat} (hi : o.handle i) {f : Handle → Handle}
    (hf : ∀ x, (f x).folder = x.folder)
    (hc : ∀ x c, (f x).child = some c → x.child = some c ∨ o.child c) :
    o.Beside key p { s with handles := s.handles.modify i f } :=
  { h with handles := h.handles.modify hi fun x hx => ⟨(hf x).trans hx.1, fun c hfc =>
      (hc x c hfc).elim (hx.2 c) id⟩ }

theorem setRecord {r : Nat} (hr : o.record r) {f : Record → Record}
    (hf : ∀ x, (f x).handle = x.handle ∧ (f x).folder = x.folder) :
    o.Beside key p { s with records := s.records.modify r f } := by
  refine { h with records := h.records.modify hr fun x hx => ?_ }
  rw [(hf x).1, (hf x).2]
  exact hx

theorem dropSession : o.Beside key p { s with sessions := Assoc.drop s.sessions key } :=
  { h with
    sessions := fun hk => (Assoc.lookup_drop_of_ne _ hk).trans (h.sessions hk)
    session := fun hr => absurd ((Assoc.lookup_drop_self _ _).symm.trans hr) nofun }

theorem putSession {r : Nat} (hr : o.record r) :
    o.Beside key p { s with sessions := Assoc.put s.sessions key r } :=
  { h with
    sessions := fun hk => (Assoc.lookup_put_of_ne _ _ hk).trans (h.sessions hk)
    session := fun hr' =>
      Option.some.inj ((Assoc.lookup_put_self _ _ _).symm.trans hr') ▸ hr }

theorem setFolders {fs : Folders} (hfs : Folders.Spares p s.folders fs) :
    o.Beside key p { s with folders := fs } :=
  { h with folders := h.folders.trans hfs }

theorem record {r : Nat} (hr : s.sessions.lookup key = some r) {x : Record}
    (hx : s.records[r]? = some x) : o.handle x.handle ∧ x.folder = p :=
  h.records.owned (h.session hr) hx

end Sandbox.Own.Beside

/-! ### Operations -/

/-- An operation that stays with the session of a key, and gives what `P` says, while nobody else
acts. -/
def Op.Beside {α : Type} {b : Sandbox} (o : b.Own) (key : String) (p : Path) (x : Op α)
    (P : α → Prop) : Prop :=
  ∀ others : Interrupts, others.Absent → ∀ s, o.Beside key p s →
    o.Beside key p (x others s).2 ∧ ∀ a, (x others s).1 = .ok a → P a

namespace Op.Beside

variable {α β : Type} {P : α → Prop} {Q : β → Prop}

theorem pure {a : α} (ha : P a) : Beside o key p (pure a) P :=
  fun _ _ _ hs => ⟨hs, fun _ h => Except.ok.inj h ▸ ha⟩

theorem fail (e : Failure) : Beside o key p (Op.fail e) P := fun _ _ _ hs => ⟨hs, nofun⟩

theorem ofExcept {r : Except Failure α} (hr : ∀ a, r = .ok a → P a) :
    Beside o key p (Op.ofExcept r) P := by
  cases r with
  | ok a => exact .pure (hr a rfl)
  | error e => exact .fail e

theorem view {f : Sandbox → α} (hf : ∀ s, o.Beside key p s → P (f s)) :
    Beside o key p (Op.view f) P :=
  fun _ _ s hs => ⟨hs, fun _ h => Except.ok.inj h ▸ hf s hs⟩

theorem need {find : Sandbox → Option α} (hf : ∀ s a, o.Beside key p s → find s = some a → P a) :
    Beside o key p (Sandbox.need find) P := by
  intro others _ s hs
  unfold Sandbox.need
  cases ha : find s with
  | none => exact ⟨hs, nofun⟩
  | some a => exact ⟨hs, fun _ h => Except.ok.inj h ▸ hf s a hs ha⟩

theorem change {f : Sandbox → Sandbox} (hf : ∀ s, o.Beside key p s → o.Beside key p (f s)) :
    Beside o key p (Op.change f) fun _ => True :=
  fun _ _ s hs => ⟨hf s hs, fun _ _ => trivial⟩

theorem bind {x : Op α} {f : α → Op β} (hx : Beside o key p x P)
    (hf : ∀ a, P a → Beside o key p (f a) Q) : Beside o key p (x >>= f) Q := by
  intro others ho s hs
  obtain ⟨ht, ha⟩ := hx others ho s hs
  rw [bind_apply]
  rcases hr : x others s with ⟨e | a, t⟩ <;> rw [hr] at ht ha
  · exact ⟨ht, nofun⟩
  · exact hf a (ha a rfl) others ho t ht

theorem bind_at {x : Op α} {f : α → Op β} {others : Interrupts} (ho : others.Absent)
    (hx : o.Beside key p (x others s).2) (hf : ∀ a, Beside o key p (f a) Q) :
    o.Beside key p ((x >>= f) others s).2 := by
  rw [bind_apply]
  rcases hr : x others s with ⟨e | a, t⟩ <;> rw [hr] at hx
  · exact hx
  · exact (hf a others ho t hx).1

theorem outcome {x : Op α} (hx : Beside o key p x P) :
    Beside o key p (Op.outcome x) fun r => ∀ a, r = .ok a → P a :=
  fun others ho s hs => ⟨(hx others ho s hs).1, fun _ h a ha =>
    (hx others ho s hs).2 a ((Except.ok.inj h).trans ha)⟩

theorem rescue {x : Op α} {other : Failure → Op α} (hx : Beside o key p x P)
    (hother : ∀ e, Beside o key p (other e) P) : Beside o key p (Op.rescue x other) P := by
  intro others ho s hs
  obtain ⟨ht, ha⟩ := hx others ho s hs
  unfold Op.rescue
  rcases hr : x others s with ⟨e | a, t⟩ <;> rw [hr] at ht ha
  · exact hother e others ho t ht
  · exact ⟨ht, ha⟩

theorem ite {c : Prop} [Decidable c] {x y : Op α} (hx : Beside o key p x P)
    (hy : Beside o key p y P) : Beside o key p (if c then x else y) P := by
  split
  · exact hx
  · exact hy

theorem interleave (commands : List Command) :
    Beside o key p (Op.interleave commands) fun _ => True := by
  intro others ho s hs
  rw [Op.interleave, ho]
  exact ⟨hs, fun _ _ => trivial⟩

theorem setChild {i : Nat} (hi : o.child i) {f : Child → Child}
    (hf : ∀ y, (f y).folder = y.folder) :
    Beside o key p (Sandbox.setChild i f) fun _ => True :=
  .change fun _ hs => hs.setChild hi hf

theorem setHandle {i : Nat} (hi : o.handle i) {f : Handle → Handle}
    (hf : ∀ x, (f x).folder = x.folder)
    (hc : ∀ x c, (f x).child = some c → x.child = some c ∨ o.child c) :
    Beside o key p (Sandbox.setHandle i f) fun _ => True :=
  .change fun _ hs => hs.setHandle hi hf hc

theorem setRecord {r : Nat} (hr : o.record r) {f : Record → Record}
    (hf : ∀ x, (f x).handle = x.handle ∧ (f x).folder = x.folder) :
    Beside o key p (Sandbox.setRecord r f) fun _ => True :=
  .change fun _ hs => hs.setRecord hr hf

theorem now : Beside o key p Sandbox.now fun _ => True := .view fun _ _ => trivial

theorem setClock (f : Sandbox → Int) :
    Beside o key p (Op.change fun s => { s with clock := f s }) fun _ => True :=
  .change fun _ hs => { hs with }

theorem elapsedMs (started : Int) : Beside o key p (Sandbox.elapsedMs started) fun _ => True :=
  .bind .now fun _ _ => .pure trivial

end Op.Beside

open Op

/-! ### Processes -/

namespace Process

variable {i : Nat}

theorem beside_child (hi : o.child i) : (child i).Beside o key p (·.folder = p) :=
  .need fun _ _ hs hy => hs.children.owned hi hy

theorem beside_launch : (launch p).Beside o key p fun launched =>
    ∀ c, launched = .ok c → o.child c := by
  refine .bind (P := o.child) (.view fun s hs => o.children hs.children.length_le)
    fun index hindex => .bind (P := fun _ => True) (.view fun _ _ => trivial) fun script _ =>
    .bind (.change fun s hs => ?_) fun _ _ => ?_
  · exact { hs with
      scripts := (List.tail_suffix _).trans hs.scripts
      children := hs.children.concat o.children rfl }
  · split
    · exact .pure nofun
    · have hpure : (pure (.ok index) : Op (Except String Nat)).Beside o key p fun launched =>
          ∀ c, launched = .ok c → o.child c :=
        .pure fun c hc => Except.ok.inj hc ▸ hindex
      split
      · exact hpure
      · exact .bind (.change fun s hs => hs.setFolders (Folders.spares_update _ _ _))
          fun _ _ => hpure

theorem beside_poll (hi : o.child i) : (poll i).Beside o key p fun _ => True :=
  .bind (beside_child hi) fun _ _ => .bind (.setChild hi fun _ => rfl) fun _ _ => .pure trivial

theorem beside_kill (hi : o.child i) : (kill i).Beside o key p fun _ => True :=
  .setChild hi fun _ => rfl

theorem beside_health (hi : o.child i) : (health i).Beside o key p fun _ => True := by
  refine .bind (beside_child hi) fun c _ => ?_
  split
  · exact .bind (.setChild hi fun _ => rfl) fun _ _ => .pure trivial
  · exact .pure trivial

theorem beside_writeShown (content : Content) :
    (writeShown p content).Beside o key p fun _ => True :=
  .change fun _ hs => hs.setFolders (Folders.spares_update _ _ _)

theorem beside_delivered (hi : o.child i) (a : Serving.Answer) :
    (delivered i a).Beside o key p fun _ => True := by
  cases a with
  | reply body => exact .pure trivial
  | refused status => exact .pure trivial
  | hung => exact .pure trivial
  | crashed => exact .bind (.setChild hi fun _ => rfl) fun _ _ => .pure trivial

theorem beside_applySeed (seed : Option Int) : (applySeed seed).Beside o key p fun _ => True :=
  .bind (.change fun _ hs => { hs with }) fun _ _ => .view fun _ _ => trivial

theorem beside_serve (hi : o.child i) (path : String) (body : Json) :
    (serve i path body).Beside o key p fun _ => True := by
  have hrun (request : Serving.RunRequest) : (serveRun i request).Beside o key p fun _ => True := by
    refine .bind (beside_child hi) fun c hc => .bind (P := fun _ => True) (.view fun _ _ => trivial)
      fun has _ => .ite (.view fun _ _ => trivial) (.bind (beside_applySeed _) fun seed _ => ?_)
    dsimp only
    rw [hc]
    exact .bind (.setClock _) fun _ _ => .bind (beside_writeShown _) fun _ _ =>
      beside_delivered hi _
  have hload (request : Serving.LoadRequest) : (serveLoad i request).Beside o key p fun _ => True :=
    .bind (beside_applySeed _) fun seed _ => .bind (.setClock _) fun _ _ =>
      .bind (.setChild hi fun _ => rfl) fun _ _ => beside_delivered hi _
  have hcall (request : Serving.CallRequest) :
      (serveCall i request).Beside o key p fun _ => True := by
    refine .bind (beside_child hi) fun c _ => .bind (P := fun _ => True) (.view fun _ _ => trivial)
      fun seed _ => ?_
    split
    · exact beside_delivered hi _
    · exact .bind (.setClock _) fun _ _ => .bind (.setChild hi fun _ => rfl) fun _ _ =>
        beside_delivered hi _
  refine .bind (beside_child hi) fun c _ => .ite (.pure trivial) (.ite ?_ (.ite ?_ ?_))
  · split
    · exact hrun _
    · exact .pure trivial
  · split
    · exact hload _
    · exact .pure trivial
  · split
    · exact hcall _
    · exact .pure trivial

theorem beside_arrive (hi : o.child i) (path : String) (body : Json) :
    (arrive i path body).Beside o key p fun _ => True := by
  have hscripted : (nextScripted i path body).Beside o key p fun _ => True := by
    refine .bind (P := fun _ => True) (.view fun _ _ => trivial) fun table _ => ?_
    split
    · exact .pure trivial
    · refine .bind (beside_child hi) fun c _ => ?_
      split
      · exact .bind (.setChild hi fun _ => rfl) fun _ _ => .pure trivial
      · exact .pure trivial
  exact .bind (.setChild hi fun _ => rfl) fun _ _ => .bind hscripted fun a _ =>
    .bind (.setClock _) fun _ _ => .bind (.interleave _) fun _ _ => .pure trivial

theorem beside_react (hi : o.child i) (path : String) (body : Json) (a : Scripted) :
    (react i path body a).Beside o key p fun _ => True := by
  have hwrite : (writeScripted i a).Beside o key p fun _ => True := by
    unfold writeScripted
    split
    · refine .bind (beside_child hi) fun c hc => ?_
      rw [hc]
      exact beside_writeShown _
    · exact .pure trivial
  refine .bind hwrite fun _ _ => ?_
  split
  · exact .pure trivial
  · exact beside_serve hi path body

end Process

/-! ### Interpreters -/

namespace Interpreter

variable {h c : Nat}

theorem beside_handle (hh : o.handle h) : (handle h).Beside o key p fun x =>
    x.folder = p ∧ ∀ c, x.child = some c → o.child c :=
  .need fun _ _ hs hx => hs.handles.owned hh hx

theorem beside_create (timeout : Binary64) :
    (create p timeout).Beside o key p o.handle :=
  .bind (P := o.handle) (.view fun _ hs => o.handles hs.handles.length_le) fun _ hindex =>
    .bind (.change fun _ hs => { hs with handles := hs.handles.concat o.handles ⟨rfl, nofun⟩ })
      fun _ _ => .pure hindex

theorem beside_kill (hh : o.handle h) : (kill h).Beside o key p fun _ => True := by
  refine .bind (beside_handle hh) fun x hx => ?_
  split
  · exact .pure trivial
  · rename_i c hc
    exact .bind (Process.beside_poll (hx.2 c hc)) fun _ _ =>
      .ite (Process.beside_kill (hx.2 c hc)) (.pure trivial)

theorem beside_reset (hh : o.handle h) : (reset h).Beside o key p fun _ => True :=
  .bind (beside_kill hh) fun _ _ => .setHandle hh (fun _ => rfl) nofun

theorem beside_askUp (hh : o.handle h) (hc : o.child c)
    (deadline : Binary64) : (askUp h c deadline).Beside o key p fun _ => True := by
  refine .bind (beside_handle hh) fun x _ => .bind .now fun t _ => ?_
  refine .ite (.bind (beside_reset hh) fun _ _ => .fail _) ?_
  refine .bind (Process.beside_poll hc) fun alive _ => .ite ?_ (Process.beside_health hc)
  exact .bind (P := fun _ => True) (.view fun _ _ => trivial) fun _ _ =>
    .bind (beside_reset hh) fun _ _ => .fail _

theorem beside_awaitUp (hh : o.handle h) (hc : o.child c)
    (deadline : Binary64) (pending : List Health) :
    (awaitUp h c deadline pending).Beside o key p fun _ => True := by
  induction pending with
  | nil =>
      refine .bind (beside_askUp hh hc deadline) fun answer _ => ?_
      split
      · exact .ofExcept fun _ _ => trivial
      · exact .pure trivial
  | cons a pending ih =>
      refine .bind (beside_askUp hh hc deadline) fun answer _ => ?_
      split
      · exact .ofExcept fun _ _ => trivial
      · exact .bind (.setClock _) fun _ _ => ih

theorem beside_start (hh : o.handle h) : (start h).Beside o key p fun _ => True := by
  refine .bind (beside_handle hh) fun x hx => .ite (.fail _) ?_
  rw [hx.1]
  refine .bind (P := fun _ => True) (.view fun _ _ => trivial) fun port _ => .bind
    (.change fun _ hs => hs.setFolders (Folders.spares_revise _ _ _)) fun _ _ =>
    .bind (.setHandle hh (fun _ => rfl) fun _ _ => .inl) fun _ _ =>
    .bind Process.beside_launch fun launched hlaunched => ?_
  cases launched with
  | error reason => exact .bind (beside_reset hh) fun _ _ => .fail _
  | ok c =>
      have hc := hlaunched c rfl
      refine .bind (.setHandle hh (fun _ => rfl) fun x c' hc' => .inr ?_) fun _ _ => .bind .now
        fun _ _ => .bind (P := fun _ => True) (.view fun _ _ => trivial) fun _ _ =>
        beside_awaitUp hh hc _ _
      rw [← Option.some.inj hc']
      exact hc

theorem beside_probe (hh : o.handle h) : (probe h).Beside o key p fun _ => True := by
  refine .bind (beside_handle hh) fun x hx => ?_
  split
  · exact .pure trivial
  · rename_i c hc
    refine .bind (Process.beside_poll (hx.2 c hc)) fun alive _ => .ite (.pure trivial) ?_
    refine .bind (Process.beside_health (hx.2 c hc)) fun answer _ => ?_
    split
    · exact .pure trivial
    · exact .pure trivial

theorem beside_readBody (body : Body) : (readBody body).Beside o key p fun _ => True := by
  unfold readBody
  split
  · exact .pure trivial
  · exact .fail _
  · split
    · exact .pure trivial
    · exact .fail _

theorem beside_addressee (hh : o.handle h) (body : Json) :
    (addressee h body).Beside o key p o.child := by
  refine .bind (beside_handle hh) fun x hx => ?_
  split
  · exact .fail _
  · rename_i c hc
    exact .ite (.fail _) (.pure (hx.2 c hc))

theorem beside_heard (hh : o.handle h) (path : String) (timeout : Binary64) (ended : Ended) :
    (heard h path timeout ended).Beside o key p fun _ => True := by
  have hshown : (shownOf h path).Beside o key p fun _ => True :=
    .ite (.bind (beside_handle hh) fun _ _ => .view fun _ _ => trivial) (.pure trivial)
  unfold heard
  split
  · exact .fail _
  · exact .ite (beside_readBody _) (.fail _)
  · exact .bind (beside_kill hh) fun _ _ => .bind hshown fun _ _ => .fail _
  · exact .bind hshown fun _ _ => .bind (beside_kill hh) fun _ _ => .fail _
  · exact .fail _

theorem beside_post (hh : o.handle h) (path : String) (body : Json) (timeout : Binary64) :
    (post h path body timeout).Beside o key p fun _ => True :=
  .bind (beside_addressee hh body) fun _ hc =>
    .bind (.bind (Process.beside_arrive hc path body) fun _ _ =>
      Process.beside_react hc path body _) fun _ _ => beside_heard hh path timeout _

end Interpreter

/-! ### The session -/

namespace Registry

variable {r : Nat}

theorem beside_find? : (Op.view (find? · key)).Beside o key p fun found =>
    ∀ r, found = some r → o.record r :=
  .view fun _ hs _ hr => hs.session hr

theorem beside_record (hr : o.record r) : (record r).Beside o key p fun x =>
    o.handle x.handle ∧ x.folder = p :=
  .need fun _ _ hs hx => hs.records.owned hr hx

theorem beside_revise {f : Folder → Folder} :
    (Op.change fun s => { s with folders := s.folders.revise p f }).Beside o key p
      fun _ => True :=
  .change fun _ hs => hs.setFolders (Folders.spares_revise _ _ _)

theorem beside_writeJournal (entry : List (String × Json)) :
    (writeJournal key entry).Beside o key p fun _ => True := by
  refine .bind (P := fun s => ∀ r, find? s key = some r → o.record r)
    (.view fun _ hs _ hr => hs.session hr) fun s hs => .ite (.pure trivial) ?_
  split
  · exact .pure trivial
  · rename_i r hr
    refine .bind (beside_record (hs r hr)) fun info hinfo => ?_
    dsimp only
    rw [hinfo.2]
    exact beside_revise

theorem beside_writeMetadata (fields : List (String × Json)) :
    (writeMetadata key fields).Beside o key p fun _ => True := by
  refine .bind (P := fun s => ∀ r, find? s key = some r → o.record r)
    (.view fun _ hs _ hr => hs.session hr) fun s hs => .ite (.pure trivial) ?_
  split
  · exact .pure trivial
  · rename_i r hr
    refine .bind (beside_record (hs r hr)) fun info hinfo => ?_
    dsimp only
    rw [hinfo.2]
    exact .bind (P := fun _ => True) (.ofExcept fun _ _ => trivial) fun _ _ => beside_revise

theorem beside_reset : (reset key).Beside o key p fun _ => True := by
  refine .bind beside_find? fun found hfound => ?_
  split
  · exact .pure trivial
  · rename_i r
    refine .bind (beside_writeJournal _) fun _ _ => .bind (beside_record (hfound r rfl))
      fun info hinfo => .bind .now fun t _ => .bind (beside_writeMetadata _) fun _ _ =>
      .bind (.change fun _ hs => hs.dropSession) fun _ _ =>
      .bind (Interpreter.beside_reset hinfo.1) fun _ _ =>
      .bind (P := fun _ => True) (.view fun _ _ => trivial) fun drop _ => .ite ?_ (.pure trivial)
    rw [hinfo.2]
    exact .change fun _ hs => hs.setFolders (Folders.spares_remove _ _)

theorem beside_note (entry : Json) : (note key entry).Beside o key p fun _ => True := by
  refine .bind beside_find? fun found hfound => ?_
  split
  · exact .pure trivial
  · rename_i r
    refine .bind (.setRecord (hfound r rfl) fun _ => ⟨rfl, rfl⟩) fun _ _ => ?_
    split
    · exact .bind (beside_writeJournal _) fun _ _ => .bind (beside_record (hfound r rfl))
        fun _ _ => .bind .now fun _ _ => beside_writeMetadata _
    · exact .fail _

theorem beside_startTwice (timeout : Binary64) (attempts : Nat) (last : Failure) :
    (startTwice p timeout key attempts last).Beside o key p o.record := by
  induction attempts generalizing last with
  | zero => exact .fail _
  | succ attempts ih =>
      refine .bind (Interpreter.beside_create timeout) fun h hh =>
        .bind (.outcome (Interpreter.beside_start hh)) fun result _ => ?_
      split
      · exact .bind (P := o.record) (.view fun _ hs => o.records hs.records.length_le)
          fun index hindex => .bind (.change fun _ hs =>
            { hs with records := hs.records.concat o.records ⟨hh, rfl⟩ }) fun _ _ => .pure hindex
      · exact .ite (.bind (Interpreter.beside_reset hh) fun _ _ => ih _) (.fail _)

theorem beside_enter (hp : folderOf b.setup key = .ok p) :
    (enter key).Beside o key p fun _ => True := by
  have hstart : (start key).Beside o key p o.record := by
    refine .bind (P := (· = b.setup)) (.view fun _ hs => hs.setup) fun setup hsetup => ?_
    rw [hsetup, hp]
    exact .bind (P := (· = p)) (.ofExcept fun q hq => (Except.ok.inj hq).symm) fun q hq =>
      hq ▸ beside_startTwice _ _ _
  have hregister : (register key).Beside o key p o.record :=
    .bind hstart fun r hr => .bind (.change fun _ hs => hs.putSession hr) fun _ _ => .pure hr
  exact .bind hregister fun r hr => .bind (beside_record hr) fun _ _ => .bind .now fun _ _ =>
    .bind (beside_writeMetadata _) fun _ _ => beside_writeJournal _

theorem beside_provide (hp : folderOf b.setup key = .ok p) :
    (provide key).Beside o key p fun _ => True := by
  refine .bind beside_find? fun found hfound => ?_
  split
  · exact beside_enter hp
  · rename_i r
    have husable : (usable r).Beside o key p fun _ => True := by
      refine .bind (beside_record (hfound r rfl)) fun info hinfo => ?_
      split
      · exact .pure trivial
      · exact .bind (Interpreter.beside_probe hinfo.1) fun _ _ => .ite (.bind .now fun _ _ =>
          .bind (.setRecord (hfound r rfl) fun _ => ⟨rfl, rfl⟩) fun _ _ => .pure trivial)
          (.pure trivial)
      · exact .pure trivial
    exact .bind husable fun _ _ => .ite (.pure trivial)
      (.bind beside_reset fun _ _ => beside_enter hp)

theorem beside_hold : (hold key).Beside o key p o.record := by
  have hget : (get key).Beside o key p o.record := by
    intro others _ s hs
    unfold get
    cases hr : find? s key with
    | none => exact ⟨hs, nofun⟩
    | some r => exact ⟨hs, fun _ h => Except.ok.inj h ▸ hs.session hr⟩
  exact .bind hget fun r hr => .bind (beside_record hr) fun _ _ => .ite (.fail _)
    (.bind (.setRecord hr fun _ => ⟨rfl, rfl⟩) fun _ _ => .pure hr)

theorem beside_letGo {α : Type} (hr : o.record r) (result : Except Failure α) :
    (letGo key r result).Beside o key p fun _ => True := by
  have hrelease (how : Departure) : (release key r how).Beside o key p fun _ => True := by
    cases how with
    | normal => exact .bind .now fun _ _ => .setRecord hr fun _ => ⟨rfl, rfl⟩
    | lost => exact .bind (.setRecord hr fun _ => ⟨rfl, rfl⟩) fun _ _ => beside_reset
    | failed => exact .setRecord hr fun _ => ⟨rfl, rfl⟩
  unfold letGo
  split
  · exact .bind (hrelease _) fun _ _ => .pure trivial
  · exact .bind (hrelease _) fun _ _ => .fail _

theorem beside_holding {α : Type} {use : Nat → Op α}
    (huse : ∀ h, o.handle h → (use h).Beside o key p fun _ => True) :
    (holding key use).Beside o key p fun _ => True :=
  .bind beside_hold fun _ hr => .bind (beside_record hr) fun _ hinfo =>
    .bind (.outcome (huse _ hinfo.1)) fun result _ => beside_letGo hr result

end Registry

/-! ### Executions -/

theorem RemoteClient.pervades_beside :
    RemoteClient.Pervades fun x => x.Beside o key p fun _ => True where
  still h others _ s hs := by
    obtain ⟨r, hr⟩ := h s
    rw [hr]
    exact ⟨hs, fun _ _ => trivial⟩
  bind hx hf := .bind hx fun a _ => hf a
  elapse _ := .setClock _
  interleave := .interleave
  rescue := .rescue
  requested _ := .change fun _ hs => { hs with }
  judged := by
    intro others _ s hs
    unfold nextScripted
    cases hscript : s.remoteScript with
    | nil => exact ⟨hs, fun _ _ => trivial⟩
    | cons a rest =>
        refine ⟨{ hs with remoteScript := ?_ }, fun _ _ => trivial⟩
        exact (hscript ▸ List.suffix_cons a rest : rest <:+ s.remoteScript).trans hs.remoteScript
  wait cancel seconds := by
    intro others _ s hs
    unfold Cancel.wait
    dsimp only
    split
    · split
      · exact ⟨{ hs with }, fun _ _ => trivial⟩
      · exact ⟨{ hs with }, fun _ _ => trivial⟩
    · exact ⟨{ hs with }, fun _ _ => trivial⟩

namespace Execution

theorem beside_concluded {consumed : Int → Op Unit}
    (hconsumed : ∀ n, (consumed n).Beside o key p fun _ => True) (r : Request) (started : Int)
    (result : Except Failure Json) :
    (concluded consumed r key started result).Beside o key p fun _ => True := by
  unfold concluded
  split
  · unfold settle
    split
    · exact .bind (P := fun _ => True) (.ofExcept fun _ _ => trivial) fun n _ =>
        .bind (hconsumed n) fun _ _ => .bind (.elapsedMs _) fun _ _ => .bind (P := fun _ => True)
        (.ofExcept fun _ _ => trivial) fun _ _ => .bind (Registry.beside_note _) fun _ _ =>
        .pure trivial
    · exact .fail _
  · exact .ite (.bind (.elapsedMs _) fun _ _ => .pure trivial) (.fail _)

theorem beside_executeLocal {consumed : Int → Op Unit}
    (hconsumed : ∀ n, (consumed n).Beside o key p fun _ => True) (r : Request) :
    (executeLocal consumed r key).Beside o key p fun _ => True :=
  .bind .now fun started _ => .bind (.outcome (Registry.beside_holding fun _ hh =>
    Interpreter.beside_post hh _ _ _)) fun result _ => beside_concluded hconsumed r started result

theorem beside_unseated (r : Request) (e : Failure) :
    (unseated r e).Beside o key p fun _ => True :=
  RemoteClient.pervades_beside.unseated
    (fun remote maxWait started =>
      RemoteClient.pervades_beside.executeRemote remote maxWait r started)
    e

end Execution

end Rerun
