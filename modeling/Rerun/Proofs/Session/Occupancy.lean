import Rerun.Proofs.Session.Ownership

/-!
How sessions are occupied. Whatever clients do, and also in the middle of what they do, a session
that is registered is ready or busy, and it is busy exactly while one scope is open on it. A busy
session turns a second scope away, it is given out as it is, and no sweep takes it down.
-/

namespace Rerun

open Sandbox Op

variable {s t u : Sandbox} {a b : Scene} {key : String} {r : Nat} {x : Record}

def Scene.openOn (a : Scene) (r : Nat) : Nat := a.scopes.countP (·.2 = r)

/-- How records, scopes and the registry fit together at all times. A record that is not registered
may be lost, but its scopes are counted like those of the others. -/
structure Scene.Ordered (a : Scene) : Prop where
  keys : (a.box.sessions.map (·.1)).Nodup
  named {key : String} {r : Nat} : a.box.sessions.lookup key = some r → key ≠ ""
  usable {key : String} {r : Nat} {x : Record} : a.box.sessions.lookup key = some r →
    a.box.records[r]? = some x → x.state = .ready ∨ x.state = .busy
  busy {r : Nat} {x : Record} : a.box.records[r]? = some x → (x.state = .busy ↔ x.locked = true)
  count {r : Nat} {x : Record} : a.box.records[r]? = some x →
    a.openOn r = if x.locked then 1 else 0
  scope {key : String} {r : Nat} : (key, r) ∈ a.scopes → r < a.box.records.length ∧
    ∀ key', a.box.sessions.lookup key' = some r → key' = key

namespace Scene.Ordered

/-- Sessions may go, and what is noted of records may change, as long as nobody enters or leaves a
scope. -/
theorem frame (h : a.Ordered) (hscopes : b.scopes = a.scopes)
    (hkeys : (b.box.sessions.map (·.1)).Nodup)
    (hsessions : ∀ key r, b.box.sessions.lookup key = some r → a.box.sessions.lookup key = some r)
    (hrecords : ∀ (r : Nat) (y : Record), b.box.records[r]? = some y →
      ∃ x, a.box.records[r]? = some x ∧ y.state = x.state ∧ y.locked = x.locked)
    (hlength : b.box.records.length = a.box.records.length) : b.Ordered where
  keys := hkeys
  named hr := h.named (hsessions _ _ hr)
  usable hr hy := by
    obtain ⟨x, hx, hstate, -⟩ := hrecords _ _ hy
    rw [hstate]
    exact h.usable (hsessions _ _ hr) hx
  busy hy := by
    obtain ⟨x, hx, hstate, hlocked⟩ := hrecords _ _ hy
    rw [hstate, hlocked]
    exact h.busy hx
  count hy := by
    obtain ⟨x, hx, -, hlocked⟩ := hrecords _ _ hy
    rw [hlocked, Scene.openOn, hscopes]
    exact h.count hx
  scope hmem := by
    rw [hscopes] at hmem
    rw [hlength]
    exact ⟨(h.scope hmem).1, fun _ hr => (h.scope hmem).2 _ (hsessions _ _ hr)⟩

theorem frame_eq (h : a.Ordered) (hscopes : b.scopes = a.scopes)
    (hsessions : b.box.sessions = a.box.sessions) (hrecords : b.box.records = a.box.records) :
    b.Ordered := by
  refine h.frame hscopes ?_ (fun _ _ hr => ?_) (fun r y hy => ?_) ?_
  · rw [hsessions]
    exact h.keys
  · rw [← hsessions]
    exact hr
  · rw [hrecords] at hy
    exact ⟨y, hy, rfl, rfl⟩
  · rw [hrecords]

theorem tornDown {scopes : List (String × Nat)} {requests : List Execution.Request}
    (h : Scene.Ordered ⟨s, scopes, requests⟩) (htorn : Registry.TornDown key s t) :
    Scene.Ordered ⟨t, scopes, requests⟩ := by
  refine h.frame rfl ?_ (fun _ _ hr => ?_) (fun r y hy => ?_) ?_
  · rw [htorn.sessions]
    exact h.keys.sublist (List.filter_sublist.map _)
  · rw [htorn.sessions] at hr
    exact Assoc.lookup_of_lookup_drop hr
  · rw [htorn.records] at hy
    exact ⟨y, hy, rfl, rfl⟩
  · rw [htorn.records]

theorem entered (h : a.Ordered) (hs : a.box.Sane) (hr : a.box.sessions.lookup key = some r)
    (hx : a.box.records[r]? = some x) (hfree : x.locked = false) :
    Scene.Ordered { a with box := Registry.held a.box r, scopes := (key, r) :: a.scopes } where
  keys := h.keys
  named := h.named
  usable hr' hy := by
    obtain ⟨z, hz, rfl⟩ := Table.getElem?_modify_eq_some.mp hy
    split
    · exact .inr rfl
    · exact h.usable hr' hz
  busy hy := by
    obtain ⟨z, hz, rfl⟩ := Table.getElem?_modify_eq_some.mp hy
    split
    · exact ⟨fun _ => rfl, fun _ => rfl⟩
    · exact h.busy hz
  count {r' y} hy := by
    obtain ⟨z, hz, rfl⟩ := Table.getElem?_modify_eq_some.mp hy
    have hcount := h.count hz
    rw [Scene.openOn] at hcount ⊢
    by_cases hrr : r = r'
    · subst hrr
      obtain rfl := Option.some.inj (hx.symm.trans hz)
      rw [hfree] at hcount
      rw [List.countP_cons, hcount]
      simp
    · rw [List.countP_cons, hcount]
      simp [hrr]
  scope hmem := by
    show _ < (a.box.records.modify r _).length ∧ _
    rw [List.length_modify]
    obtain heq | hmem := List.mem_cons.mp hmem
    · obtain ⟨rfl, rfl⟩ := Prod.mk.inj heq
      exact ⟨(List.getElem?_eq_some_iff.mp hx).1, fun _ hr' => hs.single hr' hr⟩
    · exact h.scope hmem

/-- A scope that is open is left: its record is free then. It is ready, or it is not registered any
more. -/
theorem left (h : a.Ordered) (hscope : (key, r) ∈ a.scopes) {f : Record → Record}
    (hrecords : t.records = a.box.records.modify r f)
    (hf : ∀ x, (f x).locked = false ∧ (f x).state ≠ .busy)
    (hsessions : ∀ key r, t.sessions.lookup key = some r → a.box.sessions.lookup key = some r)
    (hkeys : (t.sessions.map (·.1)).Nodup)
    (hready : (∀ x, (f x).state = .ready) ∨ ∀ key, t.sessions.lookup key ≠ some r) :
    Scene.Ordered { a with box := t, scopes := a.scopes.erase (key, r) } where
  keys := hkeys
  named hr := h.named (hsessions _ _ hr)
  usable {key' r' y} hr' hy := by
    rw [hrecords] at hy
    obtain ⟨z, hz, rfl⟩ := Table.getElem?_modify_eq_some.mp hy
    split
    · rename_i hrr
      subst hrr
      exact .inl ((hready.resolve_right fun hno => hno key' hr') z)
    · exact h.usable (hsessions _ _ hr') hz
  busy {r' y} hy := by
    rw [hrecords] at hy
    obtain ⟨z, hz, rfl⟩ := Table.getElem?_modify_eq_some.mp hy
    split
    · exact ⟨fun hb => absurd hb (hf z).2, fun hl => absurd ((hf z).1.symm.trans hl) nofun⟩
    · exact h.busy hz
  count {r' y} hy := by
    rw [hrecords] at hy
    obtain ⟨z, hz, rfl⟩ := Table.getElem?_modify_eq_some.mp hy
    have hcount := h.count hz
    rw [Scene.openOn, (List.perm_cons_erase hscope).countP_eq, List.countP_cons] at hcount
    rw [Scene.openOn]
    by_cases hrr : r = r'
    · subst hrr
      rw [if_pos (decide_eq_true rfl)] at hcount
      rw [if_pos rfl, (hf z).1]
      -- The record is locked, so that the scope is the only one that is open on it.
      split at hcount
      · exact Nat.succ.inj hcount
      · exact absurd hcount (Nat.succ_ne_zero _)
    · rw [if_neg (by simpa using hrr)] at hcount
      rw [if_neg hrr]
      exact hcount
  scope hmem := by
    rw [hrecords, List.length_modify]
    have hmem := List.mem_of_mem_erase hmem
    exact ⟨(h.scope hmem).1, fun _ hr' => (h.scope hmem).2 _ (hsessions _ _ hr')⟩

end Scene.Ordered

theorem Run.Embarked.registry {i : Nat} {y : RunInfo} {q : Execution.Request}
    (h : Run.Embarked s i y q t) : t.sessions = s.sessions ∧ t.records = s.records := by
  obtain ⟨n, v, f, hdrawn, -, -, rfl⟩ := h.drawn
  rw [hdrawn.tables]
  exact ⟨rfl, rfl⟩

theorem Scene.Ordered.enrolled {p : Path} (h : a.Ordered) (hs : a.box.Sane) (hkey : key ≠ "")
    (hnone : a.box.sessions.lookup key = none) (hadds : a.box.Adds t p) :
    Scene.Ordered { a with box := Registry.enrolled t key a.box.records.length } := by
  obtain ⟨v, z, y, hopens, rfl, -, -, hstate, hlocked⟩ := hadds.opens
  have hrecords : v.records = a.box.records := hopens.tables.records
  have hsessions : v.sessions = a.box.sessions := hopens.tables.sessions
  have hnew {key' : String} : a.box.sessions.lookup key' ≠ some a.box.records.length := by
    intro hk
    obtain ⟨w, hw, -⟩ := hs.session hk
    exact absurd (List.getElem?_eq_some_iff.mp hw).1 (Nat.lt_irrefl _)
  have hlookup {key' : String} {r : Nat}
      (hr : (Assoc.put v.sessions key a.box.records.length).lookup key' = some r) :
      key' = key ∧ r = a.box.records.length ∨
        key' ≠ key ∧ a.box.sessions.lookup key' = some r := by
    by_cases hk : key' = key
    · rw [hk, Assoc.lookup_put_self] at hr
      exact .inl ⟨hk, (Option.some.inj hr).symm⟩
    · rw [Assoc.lookup_put_of_ne _ _ hk, hsessions] at hr
      exact .inr ⟨hk, hr⟩
  have hrecord {r : Nat} {w : Record} (hw : (v.records ++ [y])[r]? = some w) :
      a.box.records[r]? = some w ∨ r = a.box.records.length ∧ w = y := by
    rw [hrecords] at hw
    exact Table.getElem?_concat_eq_some.mp hw
  exact {
    keys := by
      show ((Assoc.put v.sessions key _).map (·.1)).Nodup
      rw [hsessions]
      exact Assoc.nodup_keys_put h.keys _ _
    named := fun hr => by
      obtain ⟨rfl, -⟩ | ⟨-, hr⟩ := hlookup hr
      · exact hkey
      · exact h.named hr
    usable := fun hr hw => by
      obtain hw | ⟨-, rfl⟩ := hrecord hw
      · obtain ⟨-, rfl⟩ | ⟨-, hr⟩ := hlookup hr
        · exact absurd (List.getElem?_eq_some_iff.mp hw).1 (Nat.lt_irrefl _)
        · exact h.usable hr hw
      · exact .inl hstate
    busy := fun hw => by
      obtain hw | ⟨-, rfl⟩ := hrecord hw
      · exact h.busy hw
      · rw [hstate, hlocked]
        exact ⟨nofun, nofun⟩
    count := fun hw => by
      obtain hw | ⟨rfl, rfl⟩ := hrecord hw
      · exact h.count hw
      · -- Scopes are on records that there were before.
        rw [hlocked]
        refine List.countP_eq_zero.mpr ?_
        rintro ⟨k, r⟩ he hr
        obtain rfl : r = a.box.records.length := of_decide_eq_true hr
        exact absurd (h.scope he).1 (Nat.lt_irrefl _)
    scope := fun hmem => by
      obtain ⟨hlt, honly⟩ := h.scope hmem
      refine ⟨?_, fun key' hr => ?_⟩
      · show _ < (v.records ++ [y]).length
        rw [List.length_append, hrecords]
        exact Nat.lt_of_lt_of_le hlt (Nat.le_add_right _ _)
      · obtain ⟨-, rfl⟩ | ⟨-, hr⟩ := hlookup hr
        · exact absurd hlt (Nat.lt_irrefl _)
        · exact honly key' hr }

theorem Move.ordered (h : Move a b) (hs : a.box.Sane) (ha : a.Ordered) : b.Ordered := by
  cases h with
  | drift hd => exact ha.frame_eq rfl hd.sessions hd.records
  | touch r hf =>
      refine ha.frame rfl ha.keys (fun _ _ => id) (fun r' y hy => ?_) (List.length_modify _ _ _)
      obtain ⟨x, hx, rfl⟩ := Table.getElem?_modify_eq_some.mp hy
      refine ⟨x, hx, ?_⟩
      split
      · exact (hf x).2.2
      · exact ⟨rfl, rfl⟩
  | fail hf =>
      obtain ⟨x, hopens, -⟩ := hf
      exact ha.frame_eq rfl hopens.tables.sessions hopens.tables.records
  | enroll hkey hnone _ hadds => exact ha.enrolled hs hkey hnone hadds
  | tearDown key htorn => exact ha.tornDown htorn
  | enter hr hx hfree => exact ha.entered hs hr hx hfree
  | leave f hscope =>
      exact ha.left hscope rfl (fun _ => ⟨rfl, nofun⟩) (fun _ _ => id) ha.keys (.inl fun _ => rfl)
  | @lose t key r hscope htorn =>
      have hsessions : t.sessions = Assoc.drop a.box.sessions key := htorn.sessions
      refine ha.left hscope htorn.records (fun _ => ⟨rfl, nofun⟩) (fun _ _ hr => ?_) ?_
        (.inr fun key' hr => ?_)
      · rw [hsessions] at hr
        exact Assoc.lookup_of_lookup_drop hr
      · rw [hsessions]
        exact ha.keys.sublist (List.filter_sublist.map _)
      · -- The record was registered under the key of the scope, if at all.
        rw [hsessions] at hr
        obtain rfl := (ha.scope hscope).2 key' (Assoc.lookup_of_lookup_drop hr)
        rw [Assoc.lookup_drop_self] at hr
        exact absurd hr nofun
  | forget => exact ha.frame_eq rfl rfl rfl
  | forsake => exact ha.frame_eq rfl rfl rfl
  | begin _ _ hembarked =>
      exact ha.frame_eq rfl hembarked.registry.1 hembarked.registry.2
  | again _ _ _ hembarked =>
      exact ha.frame_eq rfl hembarked.registry.1 hembarked.registry.2
  | land => exact ha.frame_eq rfl rfl rfl

theorem Moves.ordered (h : Moves a b) (hs : a.box.Sane) (ha : a.Ordered) : b.Ordered :=
  h.keeps (fun _ _ hmove => hmove.ordered) hs ha

theorem Sandbox.Fresh.ordered (h : s.Fresh) : Scene.Ordered ⟨s, [], []⟩ where
  keys := by simp [h.sessions]
  named hr := by simp [h.sessions] at hr
  usable hr := by simp [h.sessions] at hr
  busy hx := by simp [h.records] at hx
  count hx := by simp [h.records] at hx
  scope hmem := absurd hmem List.not_mem_nil

/-! ### Busy sessions -/

namespace Registry

/-- A session that stays as it is: its registration, what is noted of it, its interpreter, and the
process of that. -/
structure Untouched (key : String) (r : Nat) (s t : Sandbox) : Prop where
  session : t.sessions.lookup key = s.sessions.lookup key
  record : t.records[r]? = s.records[r]?
  handle {x : Record} : s.records[r]? = some x → t.handles[x.handle]? = s.handles[x.handle]?
  child {x : Record} {w : Handle} {c : Nat} : s.records[r]? = some x →
    s.handles[x.handle]? = some w → w.child = some c → t.children[c]? = s.children[c]?

namespace Untouched

theorem of_forgets (h : s.Forgets t) : Untouched key r s t := by
  rw [h]
  exact ⟨rfl, rfl, fun _ => rfl, fun _ _ _ => rfl⟩

theorem trans (h : Untouched key r s t) (h' : Untouched key r t u) : Untouched key r s u where
  session := h'.session.trans h.session
  record := h'.record.trans h.record
  handle hx := (h'.handle (h.record.trans hx)).trans (h.handle hx)
  child hx hw hc := (h'.child (h.record.trans hx) ((h.handle hx).trans hw) hc).trans
    (h.child hx hw hc)

theorem of_tornDown (hs : s.Sane) (ha : s.Apart) {other : String} (htorn : TornDown other s t)
    (hne : key ≠ other) (hr : s.sessions.lookup key = some r) : Untouched key r s t := by
  obtain ⟨x, hx, -⟩ := hs.session hr
  obtain ⟨-, w, hw, -⟩ := hs.record hx
  obtain ⟨hsession, hrecords, hhandle, hchild⟩ := htorn.spares hs ha hne hr hx hw
  refine ⟨hsession.trans hr.symm, by rw [hrecords], fun hy => ?_, fun hy hv hc => ?_⟩
  · obtain rfl := Option.some.inj (hx.symm.trans hy)
    exact hhandle.trans hw.symm
  · obtain rfl := Option.some.inj (hx.symm.trans hy)
    obtain rfl := Option.some.inj (hw.symm.trans hv)
    exact hchild _ hc

end Untouched

/-- A sweep passes over the sessions of its list that it has not found idle at its start. -/
theorem Sweeps.spares {before : Sandbox} {listed : List (String × Nat)}
    (h : Sweeps before listed s t) (hs : s.Sane) (ha : s.Apart)
    (hr : s.sessions.lookup key = some r) (hx : s.records[r]? = some x)
    (hidle : isIdle before x = false) (honly : ∀ e ∈ listed, e.1 = key → e.2 = r) :
    Untouched key r s t := by
  induction h with
  | done s => exact .of_forgets rfl
  | spare _ _ _ ih => exact ih hs ha hr hx fun a ha => honly a (List.mem_cons_of_mem _ ha)
  | @take e rest s t u v y hy hyidle htorn _ hv _ hforgets _ ih =>
      have hne : key ≠ e.1 := by
        intro hkey
        rw [honly e List.mem_cons_self hkey.symm] at hy
        obtain rfl := Option.some.inj (hx.symm.trans hy)
        exact absurd (hidle.symm.trans hyidle) Bool.false_ne_true
      have hsame : Untouched key r s v :=
        (Untouched.of_tornDown hs ha htorn hne hr).trans (.of_forgets hforgets)
      have hapart : v.Apart := by
        rw [hforgets]
        exact { htorn.apart hs ha with }
      exact hsame.trans (ih hv hapart (hsame.session.trans hr) (hsame.record.trans hx)
        fun a ha => honly a (List.mem_cons_of_mem e ha))

end Registry

/-- What holds of the sessions at all times. -/
structure Scene.Regular (a : Scene) : Prop where
  /-- A session is ready and free, or busy, and then one scope is open on it. -/
  state {key : String} {r : Nat} : a.box.sessions.lookup key = some r →
    ∃ x, a.box.records[r]? = some x ∧ (x.state = .ready ∧ x.locked = false ∧ a.openOn r = 0 ∨
      x.state = .busy ∧ x.locked = true ∧ a.openOn r = 1)
  /-- A busy session turns a second scope away, whatever it is for, and nothing else happens. -/
  second {key : String} {r : Nat} {x : Record} : a.box.sessions.lookup key = some r →
    a.box.records[r]? = some x → x.state = .busy → ∀ (α : Type) (use : Nat → Op α) others,
      Registry.holding key use others a.box = (.error (.sessionBusy key), a.box)
  /-- A busy session is given out as it is. -/
  acquire {key : String} {r : Nat} {x : Record} : a.box.sessions.lookup key = some r →
    a.box.records[r]? = some x → x.state = .busy → ∃ t, Registry.Untouched key r a.box t ∧
      (Registry.acquire Contexts.onSweep (some key)).Does a.box key t
  /-- A busy session is not swept. -/
  sweep {key : String} {r : Nat} {x : Record} : a.box.sessions.lookup key = some r →
    a.box.records[r]? = some x → x.state = .busy → ∃ t, Registry.Untouched key r a.box t ∧
      (Registry.sweep Contexts.onSweep).Does a.box () t

namespace Registry

theorem sweep_spares (hkeys : (s.sessions.map (·.1)).Nodup) (hs : s.Sane) (hapart : s.Apart)
    (hr : s.sessions.lookup key = some r) (hx : s.records[r]? = some x)
    (hidle : isIdle s x = false) :
    ∃ t, (sweep Contexts.onSweep).Does s () t ∧ Untouched key r s t := by
  have honly : ∀ e ∈ s.sessions, e.1 = key → e.2 = r := by
    intro e he hkey
    have he' : s.sessions.lookup e.1 = some e.2 := Assoc.lookup_of_mem hkeys he
    rw [hkey, hr] at he'
    exact (Option.some.inj he').symm
  obtain ⟨t, hdoes, hsweeps⟩ := sweep_sweeps hs
  exact ⟨t, hdoes, hsweeps.spares hs hapart hr hx hidle honly⟩

end Registry

theorem Steps.enter {scopes : List (String × Nat)} {requests : List Execution.Request}
    (h : Steps a ⟨s, scopes, requests⟩) (hr : s.sessions.lookup key = some r)
    (hx : s.records[r]? = some x) (hfree : x.locked = false) :
    Steps a ⟨Registry.held s r, (key, r) :: scopes, requests⟩ :=
  h.tail (.enter (Registry.does_hold hr hx hfree fun _ t => t))

/-- A session that was asked for, and nobody holds. -/
def Sandbox.waiting : Sandbox :=
  (Registry.acquire Contexts.onSweep (some "k") (orderly 0) usual).2

end Rerun
