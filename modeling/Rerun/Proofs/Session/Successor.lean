import Rerun.Proofs.Sandbox.Reach

/-!
A session that takes the place of another one while a request is on its way there. Whoever holds a
session lets go of its record, but takes sessions down, and counts executions, by their key: that is
where the end of a request meets the wrong session.
-/

namespace Rerun

open Sandbox Op

variable {s t u : Sandbox}

namespace Registry

/-! ### Sessions that are spared -/

/-- A session stays that of its key, with as many executions, its interpreter alive if it was, and
its folder where it was. -/
structure Spared (key : String) (j : Nat) (t u : Sandbox) : Prop where
  registered : u.sessions.lookup key = some j
  executions {y : Record} : t.records[j]? = some y →
    ∃ z, u.records[j]? = some z ∧ z.executions = y.executions ∧ z.handle = y.handle ∧
      z.folder = y.folder
  interpreter {h c : Nat} {x : Handle} {y : Child} : t.handles[h]? = some x → x.child = some c →
    t.children[c]? = some y → y.alive = true →
    ∃ x' y', u.handles[h]? = some x' ∧ x'.child = some c ∧ u.children[c]? = some y' ∧
      y'.alive = true
  folder {y : Record} : t.records[j]? = some y → t.folders.has y.folder = true →
    u.folders.has y.folder = true

theorem spared_of_modify {key : String} {j r : Nat} (hj : t.sessions.lookup key = some j)
    (hne : j ≠ r) (f : Record → Record) :
    Spared key j t { t with records := t.records.modify r f } where
  registered := hj
  executions {y} hy :=
    ⟨y, Table.getElem?_modify_eq_some.mpr ⟨y, hy, by rw [if_neg (Ne.symm hne)]⟩, rfl, rfl, rfl⟩
  interpreter hx hc hy hl := ⟨_, _, hx, hc, hy, hl⟩
  folder _ h := h

theorem Spared.same {key : String} {j : Nat} (h : Spared key j t u) {v : Sandbox}
    (hv : u.SameSessions v) : Spared key j t v where
  registered := by
    rw [hv.sessions]
    exact h.registered
  executions hy := by
    rw [hv.records]
    exact h.executions hy
  interpreter hx hc hy hl := by
    rw [hv.handles, hv.children]
    exact h.interpreter hx hc hy hl
  folder hy hf := by
    rw [hv.folders]
    exact h.folder hy hf

def IsLoss {α : Type} (r : Except Failure α) : Prop := ∃ e, r = .error e ∧ e.losesInterpreter = true

/-- Letting go of a session spares its successor, unless the interpreter was lost: then the
successor is taken down. -/
theorem does_release (ht : t.Sane) {key : String} {j r : Nat}
    (hj : t.sessions.lookup key = some j) (hne : j ≠ r) (how : Departure) :
    ∃ u, (release key r how).Does t () u ∧ u.Sane ∧
      (how = .lost → u.sessions.lookup key = none) ∧ (how ≠ .lost → Spared key j t u ∧
        u.sessions.lookup key = some j) := by
  have hfree {f : Record → Record} (hf : ∀ x, (f x).handle = x.handle ∧ (f x).folder = x.folder)
      (hidle : ∀ x, (f x).state ≠ .busy) : Sane { t with records := t.records.modify r f } :=
    ht.modifyRecord r hf fun x _ h => absurd h (hidle x)
  cases how with
  | normal =>
      refine ⟨_, fun _ => rfl, hfree (fun _ => ⟨rfl, rfl⟩) nofun, nofun, fun _ => ⟨?_, hj⟩⟩
      exact spared_of_modify hj hne _
  | failed =>
      refine ⟨_, fun _ => rfl, hfree (fun _ => ⟨rfl, rfl⟩) nofun, nofun, fun _ => ⟨?_, hj⟩⟩
      exact spared_of_modify hj hne _
  | lost =>
      obtain ⟨u, hreset, hu⟩ := does_reset (hfree (f := fun x =>
        { x with state := .corrupted, locked := false }) (fun _ => ⟨rfl, rfl⟩) nofun) key
      refine ⟨u, .bind (does_change _) hreset, hu.sane, fun _ => ?_, fun h => absurd rfl h⟩
      rw [hu.tables]
      exact Assoc.lookup_drop_self _ _

/-! ### Requests -/

/-- A session that is held in a sound state leaves a sound state to the request. -/
theorem sound_of_hold (hs : s.Sound) {key : String} (hc : Claimed key s) {others : Interrupts}
    {r : Nat} (hhold : hold key others s = (.ok r, u)) : u.Sound := by
  obtain ⟨e, he⟩ | ⟨r', x, hr, -, -, hok⟩ := hold_cases key s hs
  · exact absurd ((he others).symm.trans hhold) nofun
  · obtain ⟨-, rfl⟩ := Prod.mk.inj ((hok others).symm.trans hhold)
    exact sound_held hs hr hc

theorem not_isLoss_ok {α : Type} (a : α) : ¬ IsLoss (.ok a : Except Failure α) := by
  rintro ⟨e, he, -⟩
  cases he

theorem isLoss_error {α : Type} {e : Failure} :
    IsLoss (.error e : Except Failure α) ↔ e.losesInterpreter = true := by
  constructor
  · rintro ⟨e', he, hl⟩
    rw [Except.error.inj he]
    exact hl
  · exact fun h => ⟨e, rfl, h⟩

/-- The end of a request, in a state in which its key has gone to another session. -/
theorem holding_ends {α : Type} (ht : t.Sane) {key : String} {j r : Nat}
    (hj : t.sessions.lookup key = some j) (hne : j ≠ r) {others : Interrupts} {x : Record}
    {f : Nat → Op α} {out : Except Failure α} (hhold : hold key others s = (.ok r, u))
    (hx : u.records[r]? = some x) (huse : f x.handle others u = (out, t)) :
    ∃ v, holding key f others s = (out, v) ∧ v.Sane ∧
      (IsLoss out → v.sessions.lookup key = none) ∧
      (¬ IsLoss out → Spared key j t v ∧ v.sessions.lookup key = some j) := by
  cases out with
  | ok a =>
      rw [holding_eq_ok hhold hx huse]
      obtain ⟨v, hdoes, hv, -, hspared⟩ := does_release ht hj hne .normal
      exact ⟨v, (hdoes.bind (does_pure a)) others, hv, fun h => absurd h (not_isLoss_ok a),
        fun _ => hspared nofun⟩
  | error e =>
      rw [holding_eq_error hhold hx huse]
      obtain ⟨v, hdoes, hv, hlost, hspared⟩ := does_release ht hj hne (departure e)
      refine ⟨v, ?_, hv, fun h => ?_, fun h => ?_⟩
      · exact hdoes.step _ others
      · exact hlost (departure_eq_lost.mpr (isLoss_error.mp h))
      · exact hspared fun h' => h (isLoss_error.mpr (departure_eq_lost.mp h'))

theorem not_spared {key : String} {j : Nat} (h : u.sessions.lookup key = none) :
    ¬ Spared key j t u :=
  fun hs => absurd (h.symm.trans hs.registered) nofun

end Registry

namespace Execution

open Registry

/-- Taking a reply over counts an execution of the session that is registered under the key then,
unless the reply is refused. -/
theorem settle_spares_iff (hu : u.Sane) {key : String} {j : Nat}
    (hj : u.sessions.lookup key = some j) (hspared : Spared key j t u) {y : Record}
    (hy : t.records[j]? = some y) {consumed : Int → Op Unit} (hc : ∀ n, (consumed n).Aside)
    (r : Request) (started : Int) (reply : Json) (others : Interrupts) :
    Spared key j t (settle consumed r key started reply others u).2 ↔
      ∃ e, (settle consumed r key started reply others u).1 = .error e := by
  have refused {v : Sandbox} {e : Failure}
      (h : settle consumed r key started reply others u = (.error e, v)) (hv : Spared key j t v) :
      Spared key j t (settle consumed r key started reply others u).2 ↔
        ∃ e, (settle consumed r key started reply others u).1 = .error e := by
    rw [h]
    exact ⟨fun _ => ⟨e, rfl⟩, fun _ => hv⟩
  cases reply with
  | obj fields =>
      cases hn : consumedOf fields with
      | error e =>
          refine refused (e := e) ?_ hspared
          simp [settle, bind_apply, hn, Op.ofExcept, Op.fail]
      | ok n =>
          obtain ⟨v, hconsumed, hv, hsame⟩ := hc n others u hu
          have htime : ∃ ms, elapsedMs started others v = (.ok ms, v) := ⟨_, rfl⟩
          obtain ⟨ms, htime⟩ := htime
          cases ho : outcomeOf r fields ms with
          | error e =>
              refine refused (e := e) ?_ (hspared.same hsame)
              simp [settle, bind_apply, hn, Op.ofExcept, hconsumed, htime, ho, Op.fail]
          | ok o =>
              have hj' : v.sessions.lookup key = some j := by
                rw [hsame.sessions]
                exact hj
              obtain ⟨fs, hsettle, -⟩ := settle_eq_ok hv hj' hn hconsumed htime ho
              rw [hsettle]
              refine ⟨fun h => ?_, by rintro ⟨e, he⟩; cases he⟩
              obtain ⟨z, hz, hcount, -⟩ := hspared.executions hy
              obtain ⟨z', hz', hcount', -⟩ := h.executions hy
              rw [← hsame.records] at hz
              obtain ⟨w, hw, rfl⟩ := Table.getElem?_modify_eq_some.mp hz'
              obtain rfl := Option.some.inj (hz.symm.trans hw)
              rw [if_pos rfl, ← hcount] at hcount'
              exact absurd hcount' (Nat.succ_ne_self _)
  | null => exact refused rfl hspared
  | bool b => exact refused rfl hspared
  | int n => exact refused rfl hspared
  | float x => exact refused rfl hspared
  | str text => exact refused rfl hspared
  | arr items => exact refused rfl hspared

/-- A request that is overtaken: while it was on its way, the session that it holds was taken down
and another one was registered under its key. However the request ends, that one is spared exactly
when the interpreter of the first was not lost; and an execution spares it exactly when it fails. -/
theorem spares_successor_iff (hs : Reachable s) {others : Interrupts} (ho : others.Orderly)
    {key : String} (hc : Claimed key s) {r : Nat} (hhold : hold key others s = (.ok r, u))
    {x : Record} (hx : u.records[r]? = some x) {path : String} {body : Json} {timeout : Binary64}
    {out : Except Failure Json}
    (huse : Interpreter.post x.handle path body timeout others u = (out, t)) {j : Nat}
    (hj : t.sessions.lookup key = some j) (hne : j ≠ r) :
    (Spared key j t (holding key (Interpreter.post · path body timeout) others s).2 ↔
      ¬ IsLoss out) ∧
    ∀ (consumed : Int → Op Unit) (req : Request), (∀ n, (consumed n).Aside) →
      path = "/run" → body = req.body → timeout = req.timeout →
      (Spared key j t (executeLocal consumed req key others s).2 ↔
        ∃ e, (executeLocal consumed req key others s).1 = .error e) := by
  have hu : u.Sound := sound_of_hold hs.sound hc hhold
  have ht : t.Sound := by
    have hpost := (Op.pervades_requests.post x.handle path body timeout).keeps u hu others others
      ho.tame fun _ _ _ => rfl
    rw [huse] at hpost
    exact hpost.2.1
  obtain ⟨y, hy, -⟩ := ht.session hj
  obtain ⟨v, hholding, hv, hlost, hspared⟩ := holding_ends
    (f := (Interpreter.post · path body timeout)) ht.toSane hj hne hhold hx huse
  constructor
  · rw [hholding]
    exact ⟨fun h hl => not_spared (hlost hl) h, fun h => (hspared h).1⟩
  · rintro consumed req hconsumed rfl rfl rfl
    cases out with
    | ok reply =>
        rw [executeLocal_eq_settle hholding]
        obtain ⟨hsp, hj'⟩ := hspared (not_isLoss_ok reply)
        exact settle_spares_iff hv hj' hsp hy hconsumed req s.clock reply others
    | error e =>
        cases hl : e.losesInterpreter with
        | true =>
            obtain ⟨ms, htime⟩ : ∃ ms, elapsedMs s.clock others v = (.ok ms, v) := ⟨_, rfl⟩
            rw [executeLocal_eq_lost hholding hl htime]
            refine ⟨fun h => absurd h (not_spared (hlost ⟨e, rfl, hl⟩)), ?_⟩
            rintro ⟨e', he'⟩
            cases he'
        | false =>
            have hno : ¬ IsLoss (.error e : Except Failure Json) := by
              rw [isLoss_error, hl]
              exact Bool.false_ne_true
            rw [executeLocal_eq_error hholding hl]
            exact ⟨fun _ => ⟨e, rfl⟩, fun _ => (hspared hno).1⟩

/-- A session whose interpreter runs out of time on its first request, while another client takes
the session down and acquires it again. -/
def overtaken : Sandbox := orderly 1 [.acquire (some "k")] { usual with
  scripts := [{ replies := [{
    during := [.reset "k", .acquire (some "k")]
    ended := some (.fault (.timeout "timed out")) }] }] }

theorem reachable_overtaken : Reachable overtaken :=
  (Reachable.fresh ⟨rfl, rfl, rfl, rfl, rfl, rfl, rfl, rfl, rfl⟩).orderly 1 _

/-- The session that the other client acquired is taken down when the time of the first is over. -/
theorem spares_successor_iff_overtaken : ∃ (u t : Sandbox) (x : Record) (out : Except Failure Json)
    (req : Request), hold "k" (orderly 1) overtaken = (.ok 0, u) ∧ u.records[0]? = some x ∧
      Interpreter.post x.handle "/run" req.body req.timeout (orderly 1) u = (out, t) ∧
      t.sessions.lookup "k" = some 1 ∧
      ¬ Spared "k" 1 t (executeLocal (fun _ => pure ()) req "k" (orderly 1) overtaken).2 := by
  let req : Request :=
    { source := ⟨"", "", ""⟩, key := "k", values := [], timeout := .ofInt 10 }
  have hc : Claimed "k" overtaken := claimed_of_ne (Contexts.ne_runKey (by decide)) _
  have hhold : hold "k" (orderly 1) overtaken = (.ok 0, held overtaken 0) := by
    obtain ⟨e, he⟩ | ⟨r, x, hr, -, -, hok⟩ := hold_cases "k" overtaken reachable_overtaken.sound
    · have hok : ((hold "k" (orderly 1) overtaken).1.toOption).isSome = true := by decide +kernel
      rw [he] at hok
      exact absurd hok nofun
    · have h : overtaken.sessions.lookup "k" = some 0 := by decide +kernel
      obtain rfl := Option.some.inj (h.symm.trans hr)
      exact hok _
  have hsome : (held overtaken 0).records[0]?.any (·.handle = 0) = true := by decide +kernel
  obtain ⟨x, hx, hhandle⟩ := (Option.any_eq_true _ _).mp hsome
  have hj : (Interpreter.post 0 "/run" req.body req.timeout (orderly 1)
      (held overtaken 0)).2.sessions.lookup "k" = some 1 := by decide +kernel
  rcases huse : Interpreter.post 0 "/run" req.body req.timeout (orderly 1) (held overtaken 0)
    with ⟨out, t⟩
  rw [huse] at hj
  have huse' : Interpreter.post x.handle "/run" req.body req.timeout (orderly 1)
      (held overtaken 0) = (out, t) := by
    rw [of_decide_eq_true hhandle]
    exact huse
  obtain ⟨-, hlocal⟩ := spares_successor_iff reachable_overtaken (orderly_orderly 1) hc hhold hx
    huse' hj (by decide)
  refine ⟨_, t, x, out, req, hhold, hx, huse', hj, ?_⟩
  rw [hlocal (fun _ => pure ()) req (fun _ others s hs => ⟨s, rfl, hs, .refl s⟩)
    rfl rfl rfl]
  rintro ⟨e, he⟩
  have hok : (executeLocal (fun _ => pure ()) req "k" (orderly 1) overtaken).1.toOption.isSome =
      true := by decide +kernel
  rw [he] at hok
  exact absurd hok nofun

end Execution

end Rerun
