import Rerun.Proofs.Sandbox.Recalls
import Rerun.Proofs.Session.Occupancy

/-!
What a sweep does, session by session. Those that were idle at its start are taken down one after
the other, and the key of each is told once; whatever belongs to none of them, records, handles and
processes, stays as it is (`Registry.Elsewhere`).
-/

namespace Rerun

open Sandbox Op

variable {s t u : Sandbox} {key : String} {r : Nat} {x : Record}

namespace Registry

/-- What belongs to none of the sessions of some keys stays as it is. -/
structure Elsewhere (K : String → Prop) (s t : Sandbox) : Prop where
  session {k : String} : ¬ K k → t.sessions.lookup k = s.sessions.lookup k
  record {r : Nat} {x : Record} : s.records[r]? = some x →
    (∀ k, K k → s.sessions.lookup k ≠ some r) →
    t.records[r]? = some x ∧ t.handles[x.handle]? = s.handles[x.handle]?
  child {c : Nat} {y : Child} : s.children[c]? = some y → (∀ k, K k → ¬ s.Owns k c) →
    t.children[c]? = some y

/-- No session has come to one of some keys, and none of theirs to a process. -/
structure Dwindles (K : String → Prop) (s t : Sandbox) : Prop where
  session {k : String} {r : Nat} : K k → t.sessions.lookup k = some r → s.sessions.lookup k = some r
  owns {k : String} {c : Nat} : K k → t.Owns k c → s.Owns k c

namespace Elsewhere

variable {K L : String → Prop}

theorem refl (K : String → Prop) (s : Sandbox) : Elsewhere K s s :=
  ⟨fun _ => rfl, fun hx _ => ⟨hx, rfl⟩, fun hy _ => hy⟩

theorem trans (h : Elsewhere K s t) (hd : Dwindles K s t) (h' : Elsewhere K t u) :
    Elsewhere K s u where
  session hk := (h'.session hk).trans (h.session hk)
  record hx hno := by
    obtain ⟨hx', hhandle⟩ := h.record hx hno
    obtain ⟨hx'', hhandle'⟩ := h'.record hx' fun k hk hr => hno k hk (hd.session hk hr)
    exact ⟨hx'', hhandle'.trans hhandle⟩
  child hy hno := h'.child (h.child hy hno) fun k hk ho => hno k hk (hd.owns hk ho)

theorem mono (h : Elsewhere K s t) (hKL : ∀ k, K k → L k) : Elsewhere L s t where
  session hk := h.session (mt (hKL _) hk)
  record hx hno := h.record hx fun k hk => hno k (hKL k hk)
  child hy hno := h.child hy fun k hk => hno k (hKL k hk)

theorem untouched (h : Elsewhere K s t) (hs : s.Sane) (ha : s.Apart) (hk : ¬ K key)
    (hr : s.sessions.lookup key = some r) : Untouched key r s t := by
  obtain ⟨x, hx, -⟩ := hs.session hr
  obtain ⟨hx', hhandle⟩ := h.record hx fun k hk' hr' => hk (hs.single hr hr' ▸ hk')
  refine ⟨h.session hk, hx'.trans hx.symm, fun hy => ?_, fun {y w c} hy hw hc => ?_⟩
  · obtain rfl := Option.some.inj (hx.symm.trans hy)
    exact hhandle
  · obtain ⟨z, hz, -⟩ := hs.handle hw hc
    refine (h.child hz fun k hk' ho => hk ?_).trans hz.symm
    rw [(ha.owns_unique hs ⟨r, y, w, hr, hy, hw, hc⟩ ho).mpr rfl]
    exact hk'

theorem of_forgets (h : s.Forgets t) : Elsewhere K s t := by
  rw [h]
  exact ⟨fun _ => rfl, fun hx _ => ⟨hx, rfl⟩, fun hy _ => hy⟩

theorem of_tornDown (htorn : TornDown key s t) (hs : s.Sane) (ha : s.Apart) :
    Elsewhere (· = key) s t := by
  cases hr : s.sessions.lookup key with
  | none =>
      rw [htorn.still hr]
      exact refl _ s
  | some r =>
      obtain ⟨x, hx, -⟩ := hs.session hr
      obtain ⟨w, hw, hchildren, hhandles⟩ := htorn.process hr hx
      refine ⟨fun hk => ?_, fun {r' x'} hx' hno => ⟨?_, ?_⟩, fun {c y} hy hno => ?_⟩
      · rw [htorn.sessions]
        exact Assoc.lookup_drop_of_ne _ hk
      · rw [htorn.records]
        exact hx'
      · rw [hhandles, List.getElem?_modify_ne]
        intro heq
        exact hno key rfl (ha.handle hx hx' heq ▸ hr)
      · rw [hchildren]
        cases hc : w.child with
        | none => exact hy
        | some d =>
            rw [Process.ending, List.getElem?_modify_ne]
            · exact hy
            · rintro rfl
              exact hno key rfl ⟨r, x, w, hr, hx, hw, hc⟩

end Elsewhere

theorem TornDown.dwindles (htorn : TornDown key s t) (hs : s.Sane) (K : String → Prop) :
    Dwindles K s t := by
  have hsession {k : String} {r : Nat} (hr : t.sessions.lookup k = some r) :
      s.sessions.lookup k = some r := by
    rw [htorn.sessions] at hr
    exact Assoc.lookup_of_lookup_drop hr
  refine ⟨fun _ => hsession, fun {k c} _ ho => ?_⟩
  obtain ⟨r, x, w, hr, hx, hw, hc⟩ := ho.owner
  rw [htorn.records] at hx
  obtain ⟨w', hw', rfl | hnone⟩ := htorn.handle_of hs hw
  · exact ⟨r, x, w, hsession hr, hx, hw', hc⟩
  · exact absurd (hnone.symm.trans hc) nofun

theorem Dwindles.of_forgets (h : s.Forgets t) (K : String → Prop) : Dwindles K s t := by
  rw [h]
  exact ⟨fun _ => id, fun _ ho => ⟨ho.owner⟩⟩

theorem Dwindles.trans {K : String → Prop} (h : Dwindles K s t) (h' : Dwindles K t u) :
    Dwindles K s u :=
  ⟨fun hk => h.session hk ∘ h'.session hk, fun hk => h.owns hk ∘ h'.owns hk⟩

/-- The interpreter of a record was reset: its handle has let go of its process, and that was
ended. -/
structure Closed (x : Record) (s t : Sandbox) : Prop where
  handle : ∃ w, s.handles[x.handle]? = some w ∧
    t.handles[x.handle]? = some { w with child := none }
  process {w : Handle} {c : Nat} {y : Child} : s.handles[x.handle]? = some w → w.child = some c →
    s.children[c]? = some y → t.children[c]? = some (Process.ended y)

/-- A record whose session is gone: it is closed, no key leads to it, and nobody owns its
process. -/
structure Gone (r : Nat) (x : Record) (s t : Sandbox) : Prop where
  closed : Closed x s t
  record : t.records[r]? = some x
  unregistered (k : String) : t.sessions.lookup k ≠ some r
  unowned {w : Handle} {c : Nat} (k : String) : s.handles[x.handle]? = some w →
    w.child = some c → ¬ t.Owns k c

theorem TornDown.gone (htorn : TornDown key s t) (hs : s.Sane) (ha : s.Apart)
    (hr : s.sessions.lookup key = some r) (hx : s.records[r]? = some x) : Gone r x s t := by
  obtain ⟨w, hw, hchildren, hhandles⟩ := htorn.process hr hx
  have hdropped : t.sessions.lookup key = none := by
    rw [htorn.sessions]
    exact Assoc.lookup_drop_self _ _
  have hdwindles := htorn.dwindles hs fun _ => True
  refine ⟨⟨⟨w, hw, ?_⟩, fun {w' c y} hw' hc hy => ?_⟩, ?_, fun k hk => ?_,
    fun {w' c} k hw' hc ho => ?_⟩
  · rw [hhandles]
    exact Table.getElem?_modify_eq_some.mpr ⟨w, hw, by rw [if_pos rfl]⟩
  · obtain rfl := Option.some.inj (hw.symm.trans hw')
    rw [hchildren, hc]
    exact Table.getElem?_modify_eq_some.mpr ⟨y, hy, by rw [if_pos rfl]⟩
  · rw [htorn.records]
    exact hx
  · obtain rfl := hs.single (hdwindles.session trivial hk) hr
    exact absurd (hdropped.symm.trans hk) nofun
  · -- Only the session that was taken down has owned the process.
    obtain rfl : k = key := (ha.owns_unique hs (hdwindles.owns trivial ho)
      ⟨r, x, w', hr, hx, hw', hc⟩).mpr rfl
    obtain ⟨r', -, -, hr', -⟩ := ho.owner
    exact absurd (hdropped.symm.trans hr') nofun

/-- A closed record stays so whatever happens to the sessions that there are. -/
theorem Gone.elsewhere {K : String → Prop} (hg : Gone r x s t) (h : Elsewhere K t u) :
    Closed x s u ∧ u.records[r]? = some x := by
  obtain ⟨w, hw, hw'⟩ := hg.closed.handle
  obtain ⟨hx, hhandle⟩ := h.record hg.record fun k _ => hg.unregistered k
  refine ⟨⟨⟨w, hw, hhandle.trans hw'⟩, fun hv hd hy => ?_⟩, hx⟩
  exact h.child (hg.closed.process hv hd hy) fun k _ => hg.unowned k hv hd

theorem Gone.trans {K : String → Prop} (hg : Gone r x s t) (h : Elsewhere K t u)
    (hd : Dwindles (fun _ => True) t u) : Gone r x s u where
  closed := (hg.elsewhere h).1
  record := (hg.elsewhere h).2
  unregistered k := hg.unregistered k ∘ hd.session trivial
  unowned k hw hc := hg.unowned k hw hc ∘ hd.owns trivial

theorem Gone.after (hg : Gone r x t u) (h : Untouched key r s t)
    (hx : s.records[r]? = some x) : Gone r x s u := by
  obtain ⟨w, hw, hw'⟩ := hg.closed.handle
  rw [h.handle hx] at hw
  refine ⟨⟨⟨w, hw, hw'⟩, fun hv hd hy => ?_⟩, hg.record, hg.unregistered, fun k hv hd => ?_⟩
  · exact hg.closed.process ((h.handle hx).trans hv) hd ((h.child hx hv hd).trans hy)
  · exact hg.unowned k ((h.handle hx).trans hv) hd

/-! ### Sweeps -/

/-- Sessions are taken down one after the other, and the key of each is told. -/
inductive Culls : List String → Sandbox → Sandbox → Prop
  | done (s : Sandbox) : Culls [] s s
  | next {key : String} {keys : List String} {s t u v : Sandbox} :
      TornDown key s t → t.Forgets u → u.Sane → u.swept = t.swept ++ [key] → Culls keys u v →
      Culls (key :: keys) s v

end Registry

namespace Contexts

abbrev SameSwept (s t : Sandbox) : Prop := t.swept = s.swept

instance : IsPreorder Sandbox SameSwept where
  refl _ := rfl
  trans _ _ _ h h' := h'.trans h

theorem swept_forgetFor (kind : String × String) : (forgetFor kind).Along SameSwept := by
  unfold forgetFor
  split
  · exact Along.chains.forgetRun (.change fun _ => rfl) fun owner _ =>
      .change fun s => by cases owner <;> rfl
  · exact Along.chains.forgetChallenge (.change fun _ => rfl) fun _ => .change fun _ => rfl
  · exact .pure _

theorem swept_onSweep (hdoes : (onSweep key).Does s () t) : t.swept = s.swept ++ [key] := by
  have hdoes := hdoes fun _ s => s
  obtain ⟨_, u, hforget, hchange⟩ := bind_eq_ok.mp hdoes
  have hswept := (swept_forgetFor (splitKey key)).holds (fun _ s => s) s
  rw [hforget] at hswept
  rw [← (Prod.mk.inj hchange).2]
  exact congrArg (· ++ [key]) hswept

end Contexts

namespace Registry

def idleAmong (s : Sandbox) (listed : List (String × Nat)) : List String :=
  (listed.filter fun e => s.records[e.2]?.any (isIdle s)).map (·.1)

theorem Sweeps.culls {before : Sandbox} {listed : List (String × Nat)}
    (h : Sweeps before listed s t) (hrecords : s.records = before.records) :
    Culls (idleAmong before listed) s t := by
  have hany {e : String × Nat} {x : Record} {s : Sandbox} (hrecords : s.records = before.records)
      (hx : s.records[e.2]? = some x) :
      before.records[e.2]?.any (isIdle before) = isIdle before x := by
    rw [← hrecords, hx]
    rfl
  induction h with
  | done s => exact .done s
  | spare hx hidle _ ih =>
      rw [idleAmong, List.filter_cons_of_neg (by rw [hany hrecords hx, hidle]; exact nofun)]
      exact ih hrecords
  | take hx hidle htorn hnote hv hswept hforgets _ ih =>
      rw [idleAmong, List.filter_cons_of_pos (by rw [hany hrecords hx, hidle])]
      exact .next htorn hforgets hv (Contexts.swept_onSweep hnote)
        (ih ((hswept.records.trans htorn.records).trans hrecords))

def idleKeys (s : Sandbox) : List String := idleAmong s s.sessions

/-- A sweep takes down the sessions that are idle, and tells their keys. -/
theorem sweep_culls (hs : s.Sane) :
    ∃ t, (sweep Contexts.onSweep).Does s () t ∧ Culls (idleKeys s) s t := by
  obtain ⟨t, hdoes, hsweeps⟩ := sweep_sweeps hs
  exact ⟨t, hdoes, hsweeps.culls rfl⟩

theorem mem_idleKeys (hkeys : (s.sessions.map (·.1)).Nodup) :
    key ∈ idleKeys s ↔ ∃ r x, s.sessions.lookup key = some r ∧ s.records[r]? = some x ∧
      isIdle s x = true := by
  simp only [idleKeys, idleAmong, List.mem_map, List.mem_filter, Option.any_eq_true]
  constructor
  · rintro ⟨e, ⟨he, x, hx, hidle⟩, rfl⟩
    exact ⟨e.2, x, Assoc.lookup_of_mem hkeys he, hx, hidle⟩
  · rintro ⟨r, x, hr, hx, hidle⟩
    obtain ⟨before, after, hl, -⟩ := List.lookup_eq_some_iff.mp hr
    exact ⟨(key, r), ⟨by simp [hl], x, hx, hidle⟩, rfl⟩

theorem nodup_idleKeys (hkeys : (s.sessions.map (·.1)).Nodup) : (idleKeys s).Nodup :=
  hkeys.sublist (List.filter_sublist.map _)

/-- The records are as they were, and no interpreter was started; nor has time passed. -/
structure Still (s t : Sandbox) : Prop where
  records : t.records = s.records
  setup : t.setup = s.setup
  clock : t.clock = s.clock
  handles : t.handles.length = s.handles.length
  children : t.children.length = s.children.length

theorem Still.trans (h : Still s t) (h' : Still t u) : Still s u :=
  ⟨h'.records.trans h.records, h'.setup.trans h.setup, h'.clock.trans h.clock,
    h'.handles.trans h.handles, h'.children.trans h.children⟩

theorem TornDown.toStill (htorn : TornDown key s t) (hs : s.Sane) : Still s t := by
  cases hr : s.sessions.lookup key with
  | none =>
      rw [htorn.still hr]
      exact ⟨rfl, rfl, rfl, rfl, rfl⟩
  | some r =>
      obtain ⟨x, hx, -⟩ := hs.session hr
      obtain ⟨w, -, hchildren, hhandles⟩ := htorn.process hr hx
      refine ⟨htorn.records, by rw [htorn.tables], by rw [htorn.tables], ?_, ?_⟩
      · rw [hhandles, List.length_modify]
      · rw [hchildren]
        cases w.child with
        | none => rfl
        | some c => exact List.length_modify _ _ _

namespace Culls

variable {keys : List String}

theorem sane (h : Culls keys s t) (hs : s.Sane) : t.Sane := by
  induction h with
  | done => exact hs
  | next _ _ hu _ _ ih => exact ih hu

theorem swept (h : Culls keys s t) : t.swept = s.swept ++ keys := by
  induction h with
  | done => exact (List.append_nil _).symm
  | next htorn _ _ htold _ ih =>
      rw [ih, htold, htorn.tables, List.append_assoc]
      rfl

theorem toStill (h : Culls keys s t) (hs : s.Sane) : Still s t := by
  induction h with
  | done => exact ⟨rfl, rfl, rfl, rfl, rfl⟩
  | next htorn hforgets hu _ _ ih =>
      refine (htorn.toStill hs).trans (Still.trans ?_ (ih hu))
      rw [hforgets]
      exact ⟨rfl, rfl, rfl, rfl, rfl⟩

theorem apart (h : Culls keys s t) (hs : s.Sane) (ha : s.Apart) : t.Apart := by
  induction h with
  | done => exact ha
  | next htorn hforgets hu _ _ ih =>
      refine ih hu ?_
      rw [hforgets]
      exact { htorn.apart hs ha with }

theorem dwindles (h : Culls keys s t) (hs : s.Sane) (K : String → Prop) : Dwindles K s t := by
  induction h with
  | done => exact ⟨fun _ => id, fun _ => id⟩
  | next htorn hforgets hu _ _ ih =>
      exact ((htorn.dwindles hs K).trans (.of_forgets hforgets K)).trans (ih hu)

theorem elsewhere (h : Culls keys s t) (hs : s.Sane) (ha : s.Apart) :
    Elsewhere (· ∈ keys) s t := by
  induction h with
  | done => exact .refl _ _
  | @next key keys s t u v htorn hforgets hu _ _ ih =>
      have hu' : u.Apart := by
        rw [hforgets]
        exact { htorn.apart hs ha with }
      have hfirst : Elsewhere (· ∈ key :: keys) s t :=
        (Elsewhere.of_tornDown htorn hs ha).mono fun _ hk => hk ▸ List.mem_cons_self
      have hrest := (ih hu hu').mono (L := (· ∈ key :: keys)) fun _ => List.mem_cons_of_mem key
      have htold : Elsewhere (· ∈ key :: keys) t u := .of_forgets hforgets
      exact (hfirst.trans (htorn.dwindles hs _) htold).trans
        ((htorn.dwindles hs _).trans (.of_forgets hforgets _)) hrest

theorem gone (h : Culls keys s t) (hs : s.Sane) (ha : s.Apart) (hkey : key ∈ keys)
    (hr : s.sessions.lookup key = some r) (hx : s.records[r]? = some x) : Gone r x s t := by
  induction h with
  | done => exact absurd hkey List.not_mem_nil
  | @next key' keys s t u v htorn hforgets hu _ hrest ih =>
      have hu' : u.Apart := by
        rw [hforgets]
        exact { htorn.apart hs ha with }
      by_cases heq : key = key'
      · subst heq
        exact ((htorn.gone hs ha hr hx).trans (.of_forgets (K := fun _ => True) hforgets)
          (.of_forgets hforgets _)).trans (hrest.elsewhere hu hu') (hrest.dwindles hu _)
      · have hsame : Untouched key r s u :=
          (Untouched.of_tornDown hs ha htorn heq hr).trans (.of_forgets hforgets)
        exact (ih hu hu' ((List.mem_cons.mp hkey).resolve_left heq) (hsame.session.trans hr)
          (hsame.record.trans hx)).after hsame hx

theorem dropped (h : Culls keys s t) (hs : s.Sane) (ha : s.Apart) (hkey : key ∈ keys) :
    t.sessions.lookup key = none := by
  cases hr : t.sessions.lookup key with
  | none => rfl
  | some r =>
      have hr' := (h.dwindles hs fun _ => True).session trivial hr
      obtain ⟨x, hx, -⟩ := hs.session hr'
      exact absurd hr ((h.gone hs ha hkey hr' hx).unregistered key)

end Culls

end Registry

end Rerun
