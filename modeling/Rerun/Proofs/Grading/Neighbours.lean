import Rerun.Proofs.Grading.Case
import Rerun.Proofs.Session.Bystanders

/-!
What cases that are graded side by side do to one another. Each has a key of its own, and with it a
folder of its own. What is done to the session of one key leaves another one alone
(`Sandbox.LetsAlone`), and so does a sweep, unless the other session is idle.
-/

namespace Rerun

open Sandbox Op

variable {s t u v b : Sandbox} {others : Interrupts} {key other : String} {p q : Path} {r : Nat}
  {x : Record}

/-! ### Keys -/

namespace Grading

def keyOf (n : Nat) : String := "batch-" ++ String.ofList (Text.hexDigits 8 n)

def folderAt (root : Path) (n : Nat) : Path := { root with parts := root.parts ++ [keyOf n] }

theorem sessionKey_drawn (n : Nat) :
    sessionKey (String.ofList (Text.hexDigits 8 n ++ Text.hexDigits 4 0)) = keyOf n := by
  rw [sessionKey, String.toList_ofList, List.take_left' (Text.length_hexDigits _ _), keyOf]

theorem toList_keyOf (n : Nat) : (keyOf n).toList = "batch-".toList ++ Text.hexDigits 8 n := by
  simp only [keyOf, String.toList_append, String.toList_ofList]

theorem keyOf_ne (n : Nat) {text : String} (h : text.toList.length < 6) : keyOf n ≠ text := by
  rintro rfl
  rw [toList_keyOf, List.length_append] at h
  have hlength : "batch-".toList.length = 6 := by decide
  omega

theorem keyOf_inj {n m : Nat} (hn : n < 16 ^ 8) (hm : m < 16 ^ 8) (h : keyOf n = keyOf m) :
    n = m := by
  have h := congrArg String.toList h
  rw [toList_keyOf, toList_keyOf, List.append_cancel_left_eq] at h
  rw [← Nat.mod_eq_of_lt hn, ← Nat.mod_eq_of_lt hm]
  exact Text.hexDigits_eq h

theorem not_mem_keyOf (n : Nat) : '/' ∉ (keyOf n).toList ∧ '\x00' ∉ (keyOf n).toList := by
  have hdigit : ∀ m < 16, Text.hexDigit m ≠ '/' ∧ Text.hexDigit m ≠ '\x00' := by decide
  have hhead : '/' ∉ "batch-".toList ∧ '\x00' ∉ "batch-".toList := by decide
  rw [toList_keyOf, List.mem_append, List.mem_append]
  constructor
  · rintro (h | h)
    · exact hhead.1 h
    · obtain ⟨m, hm, heq⟩ := Text.mem_hexDigits h
      exact (hdigit m hm).1 heq
  · rintro (h | h)
    · exact hhead.2 h
    · obtain ⟨m, hm, heq⟩ := Text.mem_hexDigits h
      exact (hdigit m hm).2 heq

theorem folderOf_keyOf (setup : Setup) (n : Nat) :
    Registry.folderOf setup (keyOf n) = .ok (folderAt setup.sessionRoot n) := by
  obtain ⟨hslash, hnull⟩ := not_mem_keyOf n
  have hname : Path.IsName (keyOf n) :=
    ⟨hslash, keyOf_ne n (by decide), keyOf_ne n (by decide), keyOf_ne n (by decide)⟩
  rw [Registry.folderOf, if_neg (by simpa using hnull), Path.resolve_name _ hname]
  rfl

theorem isMakeable_folderAt {root : Path} (h : root.isMakeable = true) (n : Nat) :
    (folderAt root n).isMakeable = true := by
  have hbytes (cs : List Char) : (String.ofList cs).utf8ByteSize ≤ 4 * cs.length := by
    induction cs with
    | nil => simp
    | cons c cs ih =>
        have hc := Char.utf8Size_le_four c
        rw [String.ofList_cons]
        simp
        omega
  have hkey := hbytes (keyOf n).toList
  have hlength : (keyOf n).toList.length = 14 := by
    rw [toList_keyOf, List.length_append, Text.length_hexDigits]
    decide
  rw [String.ofList_toList, hlength] at hkey
  rw [Path.isMakeable, folderAt, List.all_append, Bool.and_eq_true]
  refine ⟨h, ?_⟩
  simp
  omega

theorem not_within_folderAt {root : Path} {n m : Nat} (h : keyOf n ≠ keyOf m) :
    (folderAt root n).isWithin (folderAt root m) = false := by
  refine Bool.eq_false_iff.mpr fun hwithin => h ?_
  have hleads := List.isPrefixOf_iff_prefix.mp (Bool.and_eq_true_iff.mp hwithin).2
  rw [folderAt, folderAt, List.prefix_append_right_inj] at hleads
  exact (List.singleton_inj.mp (hleads.eq_of_length rfl)).symm

end Grading

/-! ### Tidy states -/

/-- A sane state in which sessions are apart from each other. -/
structure Sandbox.Tidy (s : Sandbox) : Prop where
  sane : s.Sane
  apart : s.Apart
  keys : (s.sessions.map (·.1)).Nodup

theorem Move.keys {a b : Scene} (h : Move a b) (ha : (a.box.sessions.map (·.1)).Nodup) :
    (b.box.sessions.map (·.1)).Nodup := by
  have hdrop (key : String) : ((Assoc.drop a.box.sessions key).map (·.1)).Nodup :=
    ha.sublist (List.filter_sublist.map _)
  cases h with
  | drift hd => rwa [hd.sessions]
  | fail hf =>
      obtain ⟨x, hopens, -⟩ := hf
      rwa [hopens.tables.sessions]
  | enroll _ _ _ hadds =>
      obtain ⟨v, z, y, hopens, rfl, -⟩ := hadds.opens
      show ((Assoc.put v.sessions _ _).map (·.1)).Nodup
      rw [hopens.tables.sessions]
      exact Assoc.nodup_keys_put ha _ _
  | tearDown key htorn =>
      rw [htorn.sessions]
      exact hdrop key
  | lose _ htorn =>
      rw [htorn.sessions]
      exact hdrop _
  | begin _ _ hembarked => rwa [hembarked.registry.1]
  | again _ _ _ hembarked => rwa [hembarked.registry.1]
  | touch | enter | leave | forget | forsake | land => exact ha

theorem Moves.tidy {a b : Scene} (h : Moves a b) (ha : a.box.Tidy) : b.box.Tidy :=
  h.keeps (P := (·.box.Tidy)) (fun _ _ hmove hs ha =>
    ⟨hmove.sane hs, hmove.apart hs ha.apart, hmove.keys ha.keys⟩) ha.sane ha

theorem Sandbox.Goes.tidy (h : s.Goes t) (hs : s.Tidy) : t.Tidy := Moves.tidy (h [] []) hs

theorem Interrupts.Absent.guard (h : others.Absent) (P : Sandbox → Prop) : others.Guard P := by
  intro commands s hs
  rwa [h]

namespace Op

variable {α : Type} {y : Op α}

theorem Goes.tidies (h : y.Goes) : y.Upholds Tidy :=
  fun others _ s hs => (h others s hs.sane).tidy hs

theorem composes_tidies : Composes fun y => y.Upholds Tidy :=
  ⟨⟨fun h => (Goes.of_passes (.of_still h)).tidies, .bind⟩, fun h => (Goes.of_passes h).tidies,
    .interleave, .rescue⟩

theorem Requests.tidies (h : y.Requests) : y.Upholds Tidy := h.of_composes composes_tidies

end Op

namespace Registry

theorem tidies_hold (key : String) : (hold key).Upholds Tidy := by
  intro others _ s hs
  rcases hhold : hold key others s with ⟨e | r, t⟩
  · rw [hold_eq_error hhold]
    exact hs
  · obtain ⟨x, hr, hx, hfree, rfl⟩ := hold_eq_ok hhold
    exact Moves.tidy (.single (Move.enter (a := ⟨s, [], []⟩) hr hx hfree)) hs

theorem tidies_letGo {α : Type} (key : String) (r : Nat) (result : Except Failure α) :
    (letGo key r result).Upholds Tidy := by
  refine composes_tidies.toChains.letGo (fun how others _ s hs => ?_) result
  exact (moves_release (a := ⟨s, [(key, r)], []⟩) hs.sane List.mem_cons_self how others).tidy hs

end Registry

/-! ### What is done beside a session -/

namespace Registry

/-- Nothing happens to a session when something is done to the session of another key. -/
theorem Untouched.of_beside (hb : b.Tidy) (h : (Own.of b other).Beside other q t)
    (hne : key ≠ other) (hr : b.sessions.lookup key = some r) : Untouched key r b t := by
  have hlt {α : Type} {xs : List α} {i : Nat} {a : α} (ha : xs[i]? = some a) : ¬ xs.length ≤ i :=
    Nat.not_le_of_lt (List.getElem?_eq_some_iff.mp ha).1
  -- Two sessions have two records, these two handles, and these two processes.
  have hhandle {x : Record} (hx : b.records[r]? = some x) {r' : Nat} {x' : Record}
      (hr' : b.sessions.lookup other = some r') (hx' : b.records[r']? = some x') :
      x'.handle ≠ x.handle := by
    intro heq
    obtain rfl := hb.apart.handle hx' hx heq
    exact hne (hb.sane.single hr hr')
  obtain ⟨x, hx, -⟩ := hb.sane.session hr
  refine ⟨h.sessions hne, h.records.stays ?_, fun hy => h.handles.stays ?_,
    fun hy hw hc => h.children.stays ?_⟩
  · rintro (hr' | hle)
    · exact hne (hb.sane.single hr hr')
    · exact hlt hx hle
  · obtain ⟨-, w, hw, -⟩ := hb.sane.record hy
    rintro (⟨r', x', hr', hx', heq⟩ | hle)
    · exact hhandle hy hr' hx' heq
    · exact hlt hw hle
  · obtain ⟨z, hz, -⟩ := hb.sane.handle hw hc
    rintro (⟨r', x', w', hr', hx', hw', hc'⟩ | hle)
    · exact hhandle hy hr' hx' (hb.apart.child hw' hw hc' hc)
    · exact hlt hz hle

end Registry

/-- Something else goes on, and a key without a session is not given one by that, nor is anything
shown or printed in a blank folder. -/
structure Sandbox.Avoids (key : String) (p : Path) (s t : Sandbox) : Prop where
  vacant : s.sessions.lookup key = none → t.sessions.lookup key = none
  blank : s.folders.Blank p → t.folders.Blank p

/-- Something else goes on, and the session of a key stays as it is, with its folder. -/
structure Sandbox.LetsAlone (key : String) (p : Path) (s t : Sandbox) : Prop
    extends Avoids key p s t where
  untouched {r : Nat} : s.sessions.lookup key = some r → Registry.Untouched key r s t
  found : s.folders.has p = true → t.folders.find? p = s.folders.find? p

theorem Registry.Seat.letAlone {replies : List Scripted} {r c : Nat} {y : Record} {z : Child}
    (h : Registry.Seat key p replies s r y c z) (hframe : s.LetsAlone key p t) :
    Registry.Seat key p replies t r y c z := by
  have hsame := hframe.untouched h.session
  obtain ⟨w, hw, hc⟩ := h.handle
  exact {
    session := hsame.session.trans h.session
    record := hsame.record.trans h.record
    handle := ⟨w, (hsame.handle h.record).trans hw, hc⟩
    child := (hsame.child h.record hw hc).trans h.child
    alive := h.alive
    replies := h.replies
    folder := h.folder
    has := by rw [Folders.has, hframe.found h.has]; exact h.has
    shown := by rw [Folders.Lacks, hframe.found h.has]; exact h.shown }

/-! ### Sweeps beside a session -/

namespace Registry

variable {before : Sandbox} {listed : List (String × Nat)}

/-- A sweep takes down the sessions of its list that it has found idle at its start. -/
theorem Sweeps.takes (h : Sweeps before listed s t) (hx : s.records[r]? = some x)
    (hidle : isIdle before x = true) (hmem : (key, r) ∈ listed) : t.sessions.lookup key = none := by
  induction h with
  | done s => exact absurd hmem List.not_mem_nil
  | spare hy hyidle _ ih =>
      obtain rfl | hmem := List.mem_cons.mp hmem
      · obtain rfl := Option.some.inj (hx.symm.trans hy)
        exact absurd (hidle.symm.trans hyidle) nofun
      · exact ih hx hmem
  | @take e rest s t u v y hy hyidle htorn _ hv hswept _ hsweeps ih =>
      obtain rfl | hmem := List.mem_cons.mp hmem
      · -- It is gone from its own teardown on.
        cases hr : t.sessions.lookup key with
        | none => rfl
        | some r' =>
            have hr := hswept.session (hsweeps.swept.session hr)
            rw [htorn.sessions, Assoc.lookup_drop_self] at hr
            exact absurd hr nofun
      · exact ih (by rw [hswept.records, htorn.records, hx]) hmem

/-- A sweep leaves a folder as it is that lies in none of those whose sessions are idle. -/
theorem Sweeps.found (h : Sweeps before listed s t) (hs : s.Sane)
    (hclear : ∀ e ∈ listed, ∀ x, s.records[e.2]? = some x → isIdle before x = true →
      ∀ q, folderOf s.setup e.1 = .ok q → p.isWithin q = false) (hp : s.folders.has p = true) :
    t.folders.find? p = s.folders.find? p := by
  induction h with
  | done s => rfl
  | spare _ _ _ ih => exact ih hs (fun e he => hclear e (List.mem_cons_of_mem _ he)) hp
  | @take e rest s t u v x hx hidle htorn _ hv hswept hforgets _ ih =>
      have hkept : v.folders.find? p = s.folders.find? p := by
        have hsame : v.folders = u.folders := by rw [hforgets]
        rw [hsame]
        cases hr : s.sessions.lookup e.1 with
        | none => rw [htorn.still hr]
        | some r =>
            obtain ⟨y, hy, hq⟩ := hs.session hr
            exact (htorn.elsewhere hr hy).kept (hclear e List.mem_cons_self x hx hidle _ hq) hp
      have hsetup : v.setup = s.setup := by rw [hswept.tables, htorn.tables]
      have hrecords : v.records = s.records := hswept.records.trans htorn.records
      refine (ih hv (fun e he y hy => ?_) (by rwa [Folders.has, hkept])).trans hkept
      rw [hsetup]
      exact hclear e (List.mem_cons_of_mem _ he) y (hrecords ▸ hy)

theorem sweeps_of_does (hs : s.Sane) (h : (sweep Contexts.onSweep).Does s () v) :
    Sweeps s s.sessions s v := by
  obtain ⟨w, hdoes, hsweeps⟩ := sweep_sweeps hs
  obtain rfl : w = v := (Prod.mk.inj ((hdoes fun _ u => u).symm.trans (h fun _ u => u))).2
  exact hsweeps

theorem avoids_sweep (hs : s.Sane) (h : (sweep Contexts.onSweep).Does s () v) :
    s.Avoids key p v where
  vacant hnone := by
    cases hr : v.sessions.lookup key with
    | none => rfl
    | some r => exact absurd (hnone.symm.trans ((sweeps_of_does hs h).swept.session hr)) nofun
  blank hp := by
    have hblank := keepsBlank_sweep.holds (fun _ u => u) s
    rw [h] at hblank
    exact hblank p hp

theorem sweep_takes (hs : s.Sane) (h : (sweep Contexts.onSweep).Does s () v)
    (hr : s.sessions.lookup key = some r) (hx : s.records[r]? = some x)
    (hidle : isIdle s x = true) : v.sessions.lookup key = none := by
  refine (sweeps_of_does hs h).takes hx hidle ?_
  obtain ⟨before, after, hl, -⟩ := List.lookup_eq_some_iff.mp hr
  rw [hl]
  exact List.mem_append_right before List.mem_cons_self

theorem sweep_untouched (hs : s.Tidy) (h : (sweep Contexts.onSweep).Does s () v)
    (hr : s.sessions.lookup key = some r) (hx : s.records[r]? = some x)
    (hidle : isIdle s x = false) : Untouched key r s v := by
  obtain ⟨w, hdoes, hsame⟩ := sweep_spares hs.keys hs.sane hs.apart hr hx hidle
  obtain rfl : w = v := (Prod.mk.inj ((hdoes fun _ u => u).symm.trans (h fun _ u => u))).2
  exact hsame

/-- A sweep lets a session alone that is not idle, and that works in none of the folders of the
others. -/
theorem letsAlone_sweep (hs : s.Tidy) (h : (sweep Contexts.onSweep).Does s () v)
    (hkeep : ∀ {r : Nat} {x : Record}, s.sessions.lookup key = some r → s.records[r]? = some x →
      isIdle s x = false)
    (hclear : ∀ {k : String} {r : Nat}, k ≠ key → s.sessions.lookup k = some r →
      ∀ q, folderOf s.setup k = .ok q → p.isWithin q = false) : s.LetsAlone key p v where
  toAvoids := avoids_sweep hs.sane h
  untouched hr := by
    obtain ⟨x, hx, -⟩ := hs.sane.session hr
    exact sweep_untouched hs h hr hx (hkeep hr hx)
  found := by
    refine (sweeps_of_does hs.sane h).found hs.sane fun e he x hx hidle => ?_
    have hr : s.sessions.lookup e.1 = some e.2 := Assoc.lookup_of_mem hs.keys he
    refine hclear ?_ hr
    intro hkey
    exact absurd (hidle.symm.trans (hkeep (hkey ▸ hr) hx)) nofun

end Registry

end Rerun
