import Rerun.Proofs.Program.Closure

/-!
What a computation does to its machine, whatever program it belongs to: what was shown stays shown,
reads only take values from the feed, and a computation that stops for a value has recorded the read
that stopped it. A computation that begins with no value left shows only what it writes itself.
-/

namespace Rerun

/-- The second feed is what reads can make of the first. -/
structure Feed.Leads (f g : Feed) : Prop where
  seen : g.taken + g.left.length = f.taken + f.left.length
  batch : g.batch = f.batch
  echo : g.echo = f.echo
  spent : f.left = [] → g.left = []

namespace Feed

theorem Leads.refl (f : Feed) : f.Leads f := ⟨rfl, rfl, rfl, id⟩

theorem Leads.trans {f g k : Feed} (h : f.Leads g) (h' : g.Leads k) : f.Leads k :=
  ⟨h'.seen.trans h.seen, h'.batch.trans h.batch, h'.echo.trans h.echo, h'.spent ∘ h.spent⟩

theorem leads_take (f : Feed) : f.Leads f.take.2 := by
  cases hl : f.left with
  | nil =>
      rw [take_nil hl]
      exact .refl f
  | cons v vs =>
      rw [take_cons hl]
      refine ⟨?_, rfl, rfl, fun h => absurd (hl.symm.trans h) nofun⟩
      simp only [hl, List.length_cons]
      omega

theorem leads_readLine (f : Feed) : f.Leads f.readLine.2 := by
  have h := f.leads_take
  unfold readLine
  split <;> simpa [*] using h

theorem leads_readAll (f : Feed) : f.Leads f.readAll.2 := by
  have h : f.Leads f.drain.2 := ⟨by simp [drain], rfl, rfl, fun _ => rfl⟩
  unfold readAll
  dsimp only
  split <;> exact h

end Feed

namespace Program

/-- The read of a value after its prompt was shown. -/
def Run.await (prompt : String) : Run String := do
  let value ← Run.ofRead true (·.ask prompt)
  Run.showRead value
  pure value

theorem Run.ask_eq (prompt : String) : Run.ask prompt =
    if prompt ≠ "" then Run.emit prompt >>= fun _ => Run.await prompt else Run.await prompt := by
  unfold Run.ask
  split <;> rfl

theorem Run.await_of_nil {m : Machine} (prompt : String) (hl : m.feed.left = [])
    (hb : m.feed.batch = false) : Run.await prompt m = (.error (.requested prompt),
      { m with demands := m.demands ++ [⟨true, prompt⟩] }) := by
  simp [Run.await, Run.bind_apply, Run.ofRead, Feed.ask, Feed.take_nil hl, Feed.dry, hb]

theorem Run.await_of_cons {m : Machine} {v : String} {vs : List String} (prompt : String)
    (hl : m.feed.left = v :: vs) : Run.await prompt m = (.ok v, { m with
      feed := { m.feed with left := vs, taken := m.feed.taken + 1 }
      shown := m.shown ++ if m.feed.echo then [.echoed v] else [] }) := by
  simp only [Run.await, Run.bind_apply, Run.ofRead, Feed.ask, Feed.take_cons hl, Run.showRead,
    Run.change, pure_apply]
  split <;> simp

theorem Run.readLine_of_nil {m : Machine} (hl : m.feed.left = []) (hb : m.feed.batch = false) :
    Run.ofRead false Feed.readLine m =
      (.error (.requested ""), { m with demands := m.demands ++ [⟨false, ""⟩] }) := by
  simp [Run.ofRead, Feed.readLine, Feed.take_nil hl, hb]

theorem Run.readLine_of_cons {m : Machine} {v : String} {vs : List String}
    (hl : m.feed.left = v :: vs) : Run.ofRead false Feed.readLine m = (.ok (v ++ "\n"),
      { m with feed := { m.feed with left := vs, taken := m.feed.taken + 1 } }) := by
  simp [Run.ofRead, Feed.readLine, Feed.take_cons hl]

theorem Run.readAll_of_nil {m : Machine} (hl : m.feed.left = []) (hb : m.feed.batch = false) :
    Run.ofRead false Feed.readAll m =
      (.error (.requested ""), { m with demands := m.demands ++ [⟨false, ""⟩] }) := by
  have hread : m.feed.readAll = (.error (.requested ""), m.feed) := by
    rcases hf : m.feed with ⟨left, taken, batch, echo⟩
    rw [hf] at hl hb
    simp_all [Feed.readAll, Feed.drain]
  simp [Run.ofRead, hread]

theorem Run.readAll_of_ended {m : Machine} (hl : m.feed.left = []) (hb : m.feed.batch = true) :
    Run.ofRead false Feed.readAll m = (.ok "", m) := by
  have hread : m.feed.readAll = (.ok "", m.feed) := by
    rcases hf : m.feed with ⟨left, taken, batch, echo⟩
    rw [hf] at hl hb
    simp_all [Feed.readAll, Feed.drain, Feed.linesOf]
  simp [Run.ofRead, hread]

theorem Run.readLine_of_ended {m : Machine} (hl : m.feed.left = []) (hb : m.feed.batch = true) :
    Run.ofRead false Feed.readLine m = (.ok "", m) := by
  simp [Run.ofRead, Feed.readLine, Feed.take_nil hl, hb]

theorem Run.await_of_ended {m : Machine} (prompt : String) (hl : m.feed.left = [])
    (hb : m.feed.batch = true) :
    Run.await prompt m = Run.fail "EOFError" Feed.endMessage m := by
  simp [Run.await, Run.bind_apply, Run.ofRead, Feed.ask, Feed.take_nil hl, Feed.dry, hb, Run.fail,
    Run.throwNew]

/-- The second machine is what a program can make of the first. Without a value that is left,
nothing more is shown than what the program writes itself. -/
structure Machine.Leads (m n : Machine) : Prop where
  shown : m.shown <+: n.shown
  errors : ∃ more, n.errors = m.errors ++ more
  demands : m.demands <+: n.demands
  feed : m.feed.Leads n.feed
  seed : n.seed = m.seed
  spent : m.feed.left = [] → ∃ texts : List String, n.shown = m.shown ++ texts.map .written

theorem Machine.Leads.refl (m : Machine) : m.Leads m :=
  ⟨List.prefix_rfl, ⟨"", by simp⟩, List.prefix_rfl, .refl _, rfl, fun _ => ⟨[], by simp⟩⟩

theorem Machine.Leads.trans {m n k : Machine} (h : m.Leads n) (h' : n.Leads k) : m.Leads k := by
  obtain ⟨more, hmore⟩ := h.errors
  obtain ⟨more', hmore'⟩ := h'.errors
  refine ⟨h.shown.trans h'.shown, ⟨more ++ more', ?_⟩, h.demands.trans h'.demands,
    h.feed.trans h'.feed, h'.seed.trans h.seed, fun hm => ?_⟩
  · rw [hmore', hmore, String.append_assoc]
  · obtain ⟨texts, htexts⟩ := h.spent hm
    obtain ⟨texts', htexts'⟩ := h'.spent (h.feed.spent hm)
    exact ⟨texts ++ texts', by rw [htexts', htexts, List.map_append, List.append_assoc]⟩

/-- A computation that only adds to what its machine has shown and recorded, and records the read
for which it stops. The functions of the machine may be held to read a value at a time (`allowed`),
and are then so afterwards. -/
structure Onward (allowed : Prop) {α : Type} (x : Run α) : Prop where
  within (m : Machine) : m.names.Within allowed → (x m).2.names.Within allowed
  leads (m : Machine) : m.names.Within allowed → m.Leads (x m).2
  records (m : Machine) {p : String} : m.names.Within allowed →
    (x m).1 = .error (.requested p) → m.demands.length < (x m).2.demands.length

namespace Onward

variable {α β : Type} {allowed : Prop}

/-- A computation that leaves the names alone and does not stop for a value. -/
theorem of_leads {x : Run α} (hn : ∀ m, (x m).2.names = m.names)
    (hl : ∀ m : Machine, m.Leads (x m).2)
    (hr : ∀ m p, (x m).1 ≠ .error (.requested p)) : Onward allowed x :=
  ⟨fun m hm => by rw [hn m]; exact hm, fun m _ => hl m, fun m p _ hp => absurd hp (hr m p)⟩

theorem pure (a : α) : Onward allowed (pure a : Run α) :=
  of_leads (fun _ => rfl) .refl nofun

theorem bind {x : Run α} {f : α → Run β} (hx : Onward allowed x)
    (hf : ∀ a, Onward allowed (f a)) : Onward allowed (x >>= f) := by
  constructor
  · intro m hm
    have hn := hx.within m hm
    rw [Run.bind_apply]
    rcases h : x m with ⟨_ | a, n⟩ <;> rw [h] at hn
    · exact hn
    · exact (hf a).within n hn
  · intro m hm
    have hn := hx.within m hm
    have hl := hx.leads m hm
    rw [Run.bind_apply]
    rcases h : x m with ⟨_ | a, n⟩ <;> rw [h] at hn hl
    · exact hl
    · exact hl.trans ((hf a).leads n hn)
  · intro m p hm hp
    have hn := hx.within m hm
    have hl := hx.leads m hm
    have hr := hx.records (p := p) m hm
    rw [Run.bind_apply] at hp ⊢
    rcases h : x m with ⟨s | a, n⟩ <;> rw [h] at hn hl hr hp
    · exact hr (by simpa using hp)
    · exact Nat.lt_of_le_of_lt hl.demands.length_le ((hf a).records n hn hp)

theorem stop {s : Stop} (hs : ∀ p, s ≠ .requested p) : Onward allowed (Run.stop s : Run α) :=
  of_leads (fun _ => rfl) .refl fun _ p hp => hs p (Except.error.inj hp)

theorem ofRead {prompted : Bool} {read : Feed → Except Dry α × Feed}
    (hread : ∀ f : Feed, f.Leads (read f).2) : Onward allowed (Run.ofRead prompted read) := by
  have cases (m : Machine) : (∃ r, (∀ p, r ≠ .error (.requested p)) ∧
        Run.ofRead prompted read m = (r, { m with feed := (read m.feed).2 })) ∨
      ∃ p, Run.ofRead prompted read m = (.error (.requested p),
        { m with feed := (read m.feed).2, demands := m.demands ++ [⟨prompted, p⟩] }) := by
    unfold Run.ofRead
    rcases read m.feed with ⟨(p | _) | a, g⟩
    · exact .inr ⟨p, rfl⟩
    · exact .inl ⟨.error (.raised _), fun _ => nofun, rfl⟩
    · exact .inl ⟨.ok a, fun _ => nofun, rfl⟩
  constructor
  · intro m hm
    obtain ⟨_, _, h⟩ | ⟨_, h⟩ := cases m <;> rw [h] <;> exact hm
  · intro m hm
    obtain ⟨_, _, h⟩ | ⟨_, h⟩ := cases m <;> rw [h]
    · exact { Machine.Leads.refl m with feed := hread _ }
    · exact { Machine.Leads.refl m with feed := hread _, demands := List.prefix_append _ _ }
  · intro m p _ hp
    obtain ⟨r, hr, h⟩ | ⟨_, h⟩ := cases m <;> rw [h] at hp ⊢
    · exact absurd hp (hr p)
    · simp

theorem emit (text : String) : Onward allowed (Run.emit text) :=
  of_leads (fun _ => rfl)
    (fun m => { Machine.Leads.refl m with
      shown := List.prefix_append _ _, spent := fun _ => ⟨[text], rfl⟩ }) nofun

theorem await (prompt : String) : Onward allowed (Run.await prompt) := by
  have cases (m : Machine) : (∃ r n, (∀ p, r ≠ .error (.requested p)) ∧
        Run.await prompt m = (r, n) ∧ n.names = m.names ∧ m.Leads n) ∨
      Run.await prompt m = (.error (.requested prompt),
        { m with demands := m.demands ++ [⟨true, prompt⟩] }) := by
    cases hl : m.feed.left with
    | cons v vs =>
        have hfeed := m.feed.leads_take
        rw [Feed.take_cons hl] at hfeed
        refine .inl ⟨.ok v, _, fun _ => nofun, Run.await_of_cons prompt hl, rfl, ?_⟩
        exact { Machine.Leads.refl m with
          shown := List.prefix_append _ _
          feed := hfeed
          spent := fun h => absurd (hl.symm.trans h) nofun }
    | nil =>
        cases hb : m.feed.batch with
        | true =>
            exact .inl ⟨.error (.raised _), m, fun _ => nofun, Run.await_of_ended prompt hl hb, rfl,
              .refl m⟩
        | false => exact .inr (Run.await_of_nil prompt hl hb)
  refine ⟨fun m hm => ?_, fun m _ => ?_, fun m p _ hp => ?_⟩
  · obtain ⟨r, n, -, h, hn, -⟩ | h := cases m <;> rw [h]
    · exact hn ▸ hm
    · exact hm
  · obtain ⟨r, n, -, h, -, hl⟩ | h := cases m <;> rw [h]
    · exact hl
    · exact { Machine.Leads.refl m with demands := List.prefix_append _ _ }
  · obtain ⟨r, n, hr, h, -⟩ | h := cases m <;> rw [h] at hp ⊢
    · exact absurd hp (hr p)
    · simp

theorem ask (prompt : String) : Onward allowed (Run.ask prompt) := by
  rw [Run.ask_eq]
  split
  · exact .bind (.emit prompt) fun _ => .await prompt
  · exact .await prompt

theorem handle {body other : Run α} (cls : String) (hb : Onward allowed body)
    (ho : Onward allowed other) : Onward allowed (Run.handle body cls other) := by
  constructor
  · intro m hm
    have hn := hb.within m hm
    unfold Run.handle
    split <;> simp only [*] at hn
    · exact hn
    · split
      · exact ho.within _ hn
      · exact hn
  · intro m hm
    have hn := hb.within m hm
    have hl := hb.leads m hm
    unfold Run.handle
    split <;> simp only [*] at hn hl
    · exact hl
    · split
      · exact hl.trans (ho.leads _ hn)
      · exact hl
  · intro m p hm hp
    have hn := hb.within m hm
    have hl := hb.leads m hm
    have hr := hb.records (p := p) m hm
    unfold Run.handle at hp ⊢
    split at hp <;> simp only [*] at hn hl hr ⊢
    · exact absurd hp nofun
    · split at hp <;> simp only [*] at hr ⊢
      · exact Nat.lt_of_le_of_lt hl.demands.length_le (ho.records _ hn hp)
      · exact hr hp

theorem inFrame (frame : Frame) {x : Run α} (hx : Onward allowed x) :
    Onward allowed (Run.inFrame frame x) where
  within m hm := hx.within { m with frame } hm
  leads m hm := { hx.leads { m with frame } hm with }
  records m _ hm hp := hx.records { m with frame } hm hp

/-- Every program only adds to what its machine has shown and recorded. -/
theorem closed (allowed : Prop) : Closed allowed (fun {α} => Onward allowed (α := α)) where
  pure := pure
  bind := bind
  stop := stop
  look hf := {
    within := fun m hm => (hf _ _ _ hm).within m hm
    leads := fun m hm => (hf _ _ _ hm).leads m hm
    records := fun m _ hm hp => (hf _ _ _ hm).records m hm hp }
  assign name v := by
    refine ⟨fun m hm => ?_, fun m _ => ?_, nofun⟩
    · unfold assign Run.change
      dsimp only
      split <;> exact hm
    · unfold assign Run.change
      dsimp only
      split <;> exact { Machine.Leads.refl m with }
  define _ _ _ _ hb := by
    refine ⟨fun m hm f hf => ?_, fun m _ => { Machine.Leads.refl m with }, nofun⟩
    obtain hf | hf := List.mem_append.mp hf
    · exact hm f hf
    · rw [List.mem_singleton.mp hf]
      exact hb
  emit := emit
  emitError text := of_leads (fun _ => rfl)
    (fun m => { Machine.Leads.refl m with errors := ⟨text, rfl⟩ }) nofun
  tick _ := of_leads (fun _ => rfl) (fun m => { Machine.Leads.refl m with }) nofun
  ask := ask
  readLine := ofRead Feed.leads_readLine
  readAll _ := ofRead Feed.leads_readAll
  handle := handle
  inFrame := inFrame

end Onward

end Program

end Rerun
