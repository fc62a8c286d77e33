import Rerun.Proofs.Feed.Calls

/-!
Reading from a feed to which further values are added at the end. A read that completes does not
look past the value that it gives, so that it gives the same with more values behind; the exception
is a read of everything, which gives those as well. The read that stops for a value is the one that
gets the first value added.
-/

namespace Rerun.Feed

def extend (f : Feed) (ws : List String) : Feed := { f with left := f.left ++ ws }

variable {f : Feed} {c : Call} {ws : List String} {g : Given} {d : Dry} {e e' : Event}

theorem total_on (c : Call) (f : Feed) :
    (c.on f).2.taken + (c.on f).2.left.length = f.taken + f.left.length := by
  obtain ⟨n, hn⟩ := exists_moves c f
  have hroom := hn.room
  rw [hn.after]
  dsimp only
  rw [List.length_drop]
  omega

theorem batch_on (c : Call) (f : Feed) : (c.on f).2.batch = f.batch := by
  obtain ⟨n, hn⟩ := exists_moves c f
  rw [hn.after]

/-! ### One read -/

/-- A read that completes gives the same on a longer feed, unless it reads everything. -/
theorem on_extend (hbatch : f.batch = false) (htake : c ≠ .take) (hall : c ≠ .readAll)
    (h : (c.on f).1 = .ok g) (ws : List String) :
    c.on (f.extend ws) = (.ok g, (c.on f).2.extend ws) := by
  obtain ⟨n, hn⟩ := exists_moves c f
  obtain hc | ⟨hleft, hlines⟩ := (hn.completes hbatch).mp ⟨g, h⟩
  · exact absurd hc htake
  obtain ⟨v, vs, hl⟩ := List.exists_cons_of_ne_nil hleft
  have hl' : (f.extend ws).left = v :: (vs ++ ws) := by rw [extend, hl]; rfl
  rw [on_cons ⟨hall, hlines⟩ hl] at h ⊢
  rw [on_cons ⟨hall, hlines⟩ hl', Except.ok.inj h]
  rfl

theorem readAll_on_extend (hbatch : f.batch = false) (h : (Call.readAll.on f).1 = .ok g)
    (ws : List String) :
    g = .text (linesOf f.left) ∧
      Call.readAll.on (f.extend ws) =
        (.ok (.text (linesOf (f.left ++ ws))), (f.extend ws).drain.2) := by
  obtain ⟨n, hn⟩ := exists_moves .readAll f
  obtain hc | ⟨hleft, -⟩ := (hn.completes hbatch).mp ⟨g, h⟩
  · nomatch hc
  obtain ⟨v, vs, hl⟩ := List.exists_cons_of_ne_nil hleft
  have hl' : (f.extend ws).left = v :: (vs ++ ws) := by rw [extend, hl]; rfl
  rw [readAll_on_cons hl] at h
  rw [readAll_on_cons hl', hl]
  exact ⟨(Except.ok.inj h).symm, rfl⟩

/-- A read that stops for a value gets the first one that is added, and completes with it unless it
wants all lines. -/
theorem on_extend_of_error (hbatch : f.batch = false) (hws : ws ≠ []) (h : (c.on f).1 = .error d) :
    (c.on f).2.left = [] ∧ f.taken + f.left.length < (c.on (f.extend ws)).2.taken ∧
      (c ≠ .readLines → f.left = [] ∧ ∃ g, (c.on (f.extend ws)).1 = .ok g ∧
        g.Delivers (ws.take ((c.on (f.extend ws)).2.taken - f.taken))) := by
  obtain ⟨n, hn⟩ := exists_moves c f
  obtain ⟨-, hall, hnone⟩ := hn.fails d h
  obtain ⟨k, hk⟩ := exists_moves c (f.extend ws)
  have hmore : (f.extend ws).left ≠ [] := by simp [extend, hws]
  have hlength : (f.extend ws).left.length = f.left.length + ws.length := List.length_append
  have htaken : (c.on (f.extend ws)).2.taken = f.taken + k := by rw [hk.after]; rfl
  have hpos := hk.progress hmore
  have hempty (hlines : c ≠ .readLines) : f.left = [] :=
    List.length_eq_zero_iff.mp (hall.symm.trans (hnone hlines))
  refine ⟨by rw [hn.after, hall, List.drop_length], ?_, fun hlines => ⟨hempty hlines, ?_⟩⟩
  · by_cases hlines : c = .readLines
    · -- All lines are never there, so that everything was read when the read failed.
      cases hreply : (c.on (f.extend ws)).1 with
      | ok g =>
          obtain hc | ⟨-, hc⟩ := (hk.completes hbatch).mp ⟨g, hreply⟩
          · exact absurd (hlines.symm.trans hc) nofun
          · exact absurd hlines hc
      | error d' =>
          have hwhole := (hk.fails d' hreply).2.1
          have hadded := List.length_pos_iff.mpr hws
          omega
    · rw [htaken, hempty hlines, List.length_nil]
      exact Nat.add_lt_add_left hpos f.taken
  · obtain ⟨g, hg⟩ := (hk.completes hbatch).mpr (.inr ⟨hmore, hlines⟩)
    have hdelivers := hk.delivers g hg
    rw [extend, hempty hlines, List.nil_append] at hdelivers
    rw [htaken, Nat.add_sub_cancel_left]
    exact ⟨g, hg, hdelivers⟩

/-! ### Read after read -/

/-- A read of a run and the same read of the run with further values. There are `m` values in the
first run, and `earlier` are its reads before this one. -/
structure Event.Continued (ws : List String) (m : Nat) (earlier : List Event) (e e' : Event) :
    Prop where
  /-- A read that completes gives the same and leaves the same cursor. -/
  same : ∀ g, e.reply = .ok g → e.call ≠ .readAll → e'.reply = .ok g ∧
    e'.after.taken = e.after.taken
  /-- A read of everything begins where it did, and gives the values added as well. -/
  whole : ∀ g, e.reply = .ok g → e.call = .readAll → g = .text (linesOf e.before.left) ∧
    e'.before.taken = e.before.taken ∧ e'.reply = .ok (.text (linesOf (e.before.left ++ ws))) ∧
      e'.after.taken = m + ws.length
  /-- The first read to stop for a value is the one that gets the first value added. -/
  given : ∀ d, e.reply = .error d →
    (∀ p ∈ earlier, (∃ g, p.reply = .ok g) ∧ p.call ≠ .readAll) →
      e'.before.taken ≤ m ∧ m < e'.after.taken ∧ (e.call ≠ .readLines → e'.before.taken = m ∧
        ∃ g, e'.reply = .ok g ∧ g.Delivers (ws.take (e'.after.taken - e'.before.taken)))
  /-- After a read of everything both runs stop. -/
  spent : ∀ p ∈ earlier, p.call = .readAll → (∃ g, p.reply = .ok g) →
    (∃ d, e.reply = .error d) ∧ e'.reply = e.reply

theorem reply_of_dry {calls : List Call} (htake : .take ∉ calls) (hl : f.left = [])
    (hbatch : f.batch = false) (he : e ∈ trace calls f) :
    e.reply = .error (.requested e.call.prompt) := by
  induction calls with
  | nil => nomatch he
  | cons c calls ih =>
      obtain ⟨hc, hcalls⟩ := not_or.mp (mt List.mem_cons.mpr htake)
      rw [trace, on_nil hl] at he
      obtain rfl | he := List.mem_cons.mp he
      · dsimp only
        rw [whenDry, hbatch, if_neg (Ne.symm hc)]
        rfl
      · exact ih hcalls he

theorem call_of_getElem? {calls : List Call} {i : Nat} (he : (trace calls f)[i]? = some e) :
    calls[i]? = some e.call := by
  induction calls generalizing f i with
  | nil => nomatch he
  | cons c calls ih =>
      rw [trace] at he
      cases i with
      | zero => rw [← Option.some.inj he]; rfl
      | succ i => exact ih he

theorem readAll_on_left (f : Feed) : (Call.readAll.on f).2.left = [] := by
  cases hl : f.left with
  | nil => rw [on_nil hl]; exact hl
  | cons v vs => rw [readAll_on_cons hl]; rfl

theorem continued_first (hws : ws ≠ []) (htake : c ≠ .take) (hbatch : f.batch = false) :
    Event.Continued ws (f.taken + f.left.length) [] ⟨c, f, (c.on f).1, (c.on f).2⟩
      ⟨c, f.extend ws, (c.on (f.extend ws)).1, (c.on (f.extend ws)).2⟩ where
  same g hg hall := by
    rw [on_extend hbatch htake hall hg ws]
    exact ⟨rfl, rfl⟩
  whole g hg hall := by
    obtain rfl : c = .readAll := hall
    obtain ⟨hgiven, hextended⟩ := readAll_on_extend hbatch hg ws
    rw [hextended]
    refine ⟨hgiven, rfl, rfl, ?_⟩
    dsimp only [drain, extend]
    rw [List.length_append, Nat.add_assoc]
  given d hd _ := by
    obtain ⟨-, hbeyond, hgiven⟩ := on_extend_of_error hbatch hws hd
    refine ⟨Nat.le_add_right _ _, hbeyond, fun hlines => ?_⟩
    obtain ⟨hempty, hgiven⟩ := hgiven hlines
    exact ⟨by rw [hempty]; rfl, hgiven⟩
  spent := nofun

theorem continued_of_error {m : Nat} {earlier : List Event} (hstop : e.reply = .error d)
    (hearlier : ∃ p ∈ earlier, ¬ ((∃ g, p.reply = .ok g) ∧ p.call ≠ .readAll))
    (hspent : ∀ p ∈ earlier, p.call = .readAll → (∃ g, p.reply = .ok g) → e'.reply = e.reply) :
    Event.Continued ws m earlier e e' where
  same g hg _ := absurd (hstop.symm.trans hg) nofun
  whole g hg _ := absurd (hstop.symm.trans hg) nofun
  given _ _ hall := by
    obtain ⟨p, hp, hnot⟩ := hearlier
    exact absurd (hall p hp) hnot
  spent p hp hall hok := ⟨⟨d, hstop⟩, hspent p hp hall hok⟩

theorem continued (hws : ws ≠ []) {calls : List Call} (htake : .take ∉ calls)
    (hbatch : f.batch = false) {i : Nat} (he : (trace calls f)[i]? = some e)
    (he' : (trace calls (f.extend ws))[i]? = some e') :
    Event.Continued ws (f.taken + f.left.length) ((trace calls f).take i) e e' := by
  induction calls generalizing f i with
  | nil => cases he
  | cons c calls ih =>
      obtain ⟨hc, hcalls⟩ := not_or.mp (mt List.mem_cons.mpr htake)
      have hbatch' : (c.on f).2.batch = false := (batch_on c f).trans hbatch
      rw [trace] at he he' ⊢
      cases i with
      | zero =>
          obtain rfl := Option.some.inj he
          obtain rfl := Option.some.inj he'
          exact continued_first hws (Ne.symm hc) hbatch
      | succ i =>
          rw [List.getElem?_cons_succ] at he he'
          rw [List.take_succ_cons]
          have hstop (hdry : (c.on f).2.left = []) {p : Event} (hp : p ∈ trace calls (c.on f).2) :
              p.reply = .error (.requested p.call.prompt) :=
            reply_of_dry hcalls hdry hbatch' hp
          cases hreply : (c.on f).1 with
          | ok g =>
              by_cases hall : c = .readAll
              · subst hall
                have hfirst : ¬ ((∃ g', Except.ok g = Except.ok (ε := Dry) g') ∧
                    Call.readAll ≠ .readAll) := fun h => h.2 rfl
                have hsame : e'.call = e.call :=
                  Option.some.inj ((call_of_getElem? he').symm.trans (call_of_getElem? he))
                have hstop' := reply_of_dry hcalls (readAll_on_left (f.extend ws))
                  ((batch_on .readAll (f.extend ws)).trans hbatch) (List.mem_of_getElem? he')
                have hstop := hstop (readAll_on_left f) (List.mem_of_getElem? he)
                refine continued_of_error hstop ⟨_, List.mem_cons_self, hfirst⟩ fun _ _ _ _ => ?_
                rw [hstop', hstop, hsame]
              · rw [on_extend hbatch (Ne.symm hc) hall hreply ws] at he'
                have hrest := ih hcalls hbatch' he he'
                rw [total_on] at hrest
                refine ⟨hrest.same, hrest.whole, fun d hd hearlier => ?_, fun p hp hpall hok => ?_⟩
                · exact hrest.given d hd (List.forall_mem_cons.mp hearlier).2
                · obtain rfl | hp := List.mem_cons.mp hp
                  · exact absurd hpall hall
                  · exact hrest.spent p hp hpall hok
          | error d =>
              obtain ⟨hdry, -⟩ := on_extend_of_error hbatch hws hreply
              have hfirst : ¬ ((∃ g, Except.error d = Except.ok (α := Given) g) ∧ c ≠ .readAll) :=
                fun h => by cases h.1.choose_spec
              refine continued_of_error (hstop hdry (List.mem_of_getElem? he))
                ⟨_, List.mem_cons_self, hfirst⟩ fun p hp _ hg => ?_
              obtain ⟨g, hg⟩ := hg
              obtain rfl | hp := List.mem_cons.mp hp
              · cases hg
              · cases (hstop hdry (List.mem_of_mem_take hp)).symm.trans hg

/-- Reads are stable when values are added. A read that completes gives the same and leaves the same
cursor; only a read of everything gives the added values too. The first read to stop for a value is
the one that gets the first value added, unless everything was read before it. -/
theorem reads_stable {vs ws : List String} (hws : ws ≠ []) {calls : List Call}
    (hreads : .take ∉ calls) (echo : Bool) {i : Nat} {e e' : Event}
    (he : (trace calls (ofMode vs RunMode.interactive.name echo))[i]? = some e)
    (he' : (trace calls (ofMode (vs ++ ws) RunMode.interactive.name echo))[i]? = some e') :
    Event.Continued ws vs.length
      ((trace calls (ofMode vs RunMode.interactive.name echo)).take i) e e' := by
  have h := continued (f := ofMode vs RunMode.interactive.name echo) hws hreads rfl he he'
  rwa [show (ofMode vs RunMode.interactive.name echo).taken +
    (ofMode vs RunMode.interactive.name echo).left.length = vs.length from Nat.zero_add _] at h

/-- An input and a line are read again as they were, and the next input gets the value added. -/
theorem reads_stable_resumed : ["c"] ≠ [] ∧ Call.take ∉ [Call.input "", .readLine, .input "?"] ∧
    Event.Continued ["c"] 2
      [⟨.input "", ⟨["a", "b"], 0, false, true⟩, .ok (.value "a"), ⟨["b"], 1, false, true⟩⟩,
        ⟨.readLine, ⟨["b"], 1, false, true⟩, .ok (.text "b\n"), ⟨[], 2, false, true⟩⟩]
      ⟨.input "?", ⟨[], 2, false, true⟩, .error (.requested "?"), ⟨[], 2, false, true⟩⟩
      ⟨.input "?", ⟨["c"], 2, false, true⟩, .ok (.value "c"), ⟨[], 3, false, true⟩⟩ :=
  ⟨by decide, by decide, @reads_stable ["a", "b"] ["c"] (by decide)
    [.input "", .readLine, .input "?"] (by decide) true 2 _ _ rfl rfl⟩

/-- A read of everything completes on one value, and gives another result when a second one is
added. -/
theorem not_reads_stable_readAll : ¬ ∀ (vs ws : List String) (calls : List Call), ws ≠ [] →
    .take ∉ calls → ∀ (i : Nat) (e e' : Event) (g : Given),
      (trace calls (ofMode vs RunMode.interactive.name true))[i]? = some e →
      (trace calls (ofMode (vs ++ ws) RunMode.interactive.name true))[i]? = some e' →
      e.reply = .ok g → e'.reply = .ok g ∧ e'.after.taken = e.after.taken := fun h =>
  absurd (h ["a"] ["b"] [.readAll] (by decide) (by decide) 0 _ _ _ rfl rfl rfl).2 (by decide)

end Rerun.Feed
