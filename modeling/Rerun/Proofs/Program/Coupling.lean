import Rerun.Proofs.Program.Leads

/-!
Two runs of one program whose feeds differ. They go together, in the same state but for the feeds,
until a read of the first finds no value left and stops for one. If the first run then stops for
good, the second has shown all that the first has shown.
-/

namespace Rerun.Program

/-- What the second of two runs reads, beside the first, and what it shows first when it goes on
after a read for which the first has stopped. -/
structure Coupling where
  feed : Feed → Feed
  extra : Demand → Feed → List Piece

def Machine.coupled (κ : Coupling) (m : Machine) : Machine := { m with feed := κ.feed m.feed }

/-- No read of the first run has found its feed empty, and the second is where the first is. -/
structure Together {α : Type} (κ : Coupling) (r r' : Except Stop α × Machine) : Prop where
  result : r'.1 = r.1
  machine : r'.2 = r.2.coupled κ
  undemanded : r.2.demands = []
  live : r.2.feed.batch = false

/-- The first run has stopped for good, in `m`, at a read that has found its feed empty, and the
second has gone on from there to `n`, without a value left. -/
structure Overtaken (κ : Coupling) (d : Demand) (m n : Machine) : Prop where
  left : m.feed.left = []
  spent : n.feed.left = []
  shown : ∃ texts : List String, n.shown = m.shown ++ κ.extra d m.feed ++ texts.map .written
  errors : ∃ more, n.errors = m.errors ++ more

/-- A read of the first run has found its feed empty. If that read is the one for which the run has
stopped, then the second run has gone on from there. -/
structure Parted {α : Type} (κ : Coupling) (r : Except Stop α × Machine) (n : Machine) : Prop where
  demanded : r.2.demands ≠ []
  overtaken {d : Demand} {p : String} : r.2.demands = [d] → r.1 = .error (.requested p) →
    d.prompt = p ∧ Overtaken κ d r.2 n

variable {κ : Coupling} {allowed : Prop} {α β : Type}

namespace Parted

theorem waits {r : Except Stop α × Machine} {n : Machine} (h : Parted κ r n) {d : Demand}
    {p : String} (hd : r.2.demands = [d]) (hp : r.1 = .error (.requested p)) :
    d.prompt = p ∧ r.2.feed.left = [] ∧ r.2.shown ++ κ.extra d r.2.feed <+: n.shown ∧
      ∃ more, n.errors = r.2.errors ++ more := by
  obtain ⟨hprompt, hleft, -, ⟨texts, hshown⟩, herrors⟩ := h.overtaken hd hp
  exact ⟨hprompt, hleft, ⟨_, hshown.symm⟩, herrors⟩

theorem second {s : Stop} {n k k' : Machine}
    (h : Parted κ ((.error s, n) : Except Stop α × Machine) k) (hl : k.Leads k') :
    Parted κ ((.error s, n) : Except Stop β × Machine) k' where
  demanded := h.demanded
  overtaken hd hp := by
    obtain ⟨hprompt, hleft, hspent, ⟨texts, hshown⟩, more, herrors⟩ :=
      h.overtaken hd (by simpa using hp)
    obtain ⟨texts', hshown'⟩ := hl.spent hspent
    obtain ⟨more', herrors'⟩ := hl.errors
    refine ⟨hprompt, hleft, hl.feed.spent hspent, ⟨texts ++ texts', ?_⟩, more ++ more', ?_⟩
    · rw [hshown', hshown, List.map_append, List.append_assoc]
    · rw [herrors', herrors, String.append_assoc]

/-- The first run goes on, so that a later read is the one for which it stops. -/
theorem first {r : Except Stop α × Machine} {k k' : Machine} (h : Parted κ r k) {x : Run β}
    (hx : Onward allowed x) (hn : r.2.names.Within allowed) : Parted κ (x r.2) k' where
  demanded hd := h.demanded (List.prefix_nil.mp (hd ▸ (hx.leads r.2 hn).demands))
  overtaken hd hp := by
    have hlen := hx.records r.2 hn hp
    rw [hd, List.length_singleton, Nat.lt_one_iff, List.length_eq_zero_iff] at hlen
    exact absurd hlen h.demanded

/-- The first run has stopped at a read, and the second is about to go on. -/
theorem of_demand {m n : Machine} {d : Demand} (hd : m.demands = []) (hleft : m.feed.left = [])
    (hspent : n.feed.left = []) (hshown : n.shown = m.shown ++ κ.extra d m.feed)
    (herrors : n.errors = m.errors) :
    Parted κ ((.error (.requested d.prompt), { m with demands := m.demands ++ [d] }) :
      Except Stop α × Machine) n where
  demanded := by simp
  overtaken {d' p} hd' hp := by
    obtain rfl : d = d' := by simpa [hd] using hd'
    exact ⟨by simpa using hp, hleft, hspent, ⟨[], by simpa using hshown⟩, "", by simp [herrors]⟩

end Parted

/-- A computation whose runs with the two feeds go together up to the first read of the first run
that finds no value left. -/
structure InStep (κ : Coupling) (allowed : Prop) (x : Run α) : Prop where
  onward : Onward allowed x
  runs (m : Machine) : m.names.Within allowed → m.demands = [] → m.feed.batch = false →
    Together κ (x m) (x (m.coupled κ)) ∨ Parted κ (x m) (x (m.coupled κ)).2

namespace InStep

theorem of_together {x : Run α} (ho : Onward allowed x)
    (h : ∀ m, x (m.coupled κ) = ((x m).1, (x m).2.coupled κ))
    (hd : ∀ m, (x m).2.demands = m.demands) (hf : ∀ m, (x m).2.feed = m.feed) :
    InStep κ allowed x where
  onward := ho
  runs m _ hm hb := by
    refine .inl ⟨?_, ?_, ?_, ?_⟩
    · rw [h m]
    · rw [h m]
    · rw [hd m, hm]
    · rw [hf m, hb]

theorem bind {x : Run α} {f : α → Run β} (hx : InStep κ allowed x)
    (hf : ∀ a, InStep κ allowed (f a)) : InStep κ allowed (x >>= f) where
  onward := hx.onward.bind fun a => (hf a).onward
  runs m hm hd hb := by
    have hn := hx.onward.within m hm
    have hn' := hx.onward.within (m.coupled κ) hm
    rw [Run.bind_apply, Run.bind_apply]
    obtain h | h := hx.runs m hm hd hb
    · rcases hr : x m with ⟨s | a, n⟩ <;> rcases hr' : x (m.coupled κ) with ⟨res, n'⟩ <;>
        rw [hr, hr'] at h <;> obtain ⟨rfl, rfl, hnd, hnb⟩ := h
      · exact .inl ⟨rfl, rfl, hnd, hnb⟩
      · rw [hr] at hn
        exact (hf a).runs n hn hnd hnb
    · rcases hr : x m with ⟨s | a, n⟩ <;> rw [hr] at h hn
      · refine .inr ?_
        rcases hr' : x (m.coupled κ) with ⟨s' | a', n'⟩ <;> rw [hr'] at h hn'
        · exact h.second (.refl n')
        · exact h.second ((hf a').onward.leads n' hn')
      · exact .inr (h.first (hf a).onward hn)

theorem handle {body other : Run α} (cls : String) (hb : InStep κ allowed body)
    (ho : InStep κ allowed other) : InStep κ allowed (Run.handle body cls other) where
  onward := hb.onward.handle cls ho.onward
  runs m hm hd hlive := by
    have hn := hb.onward.within m hm
    have hn' := hb.onward.within (m.coupled κ) hm
    unfold Run.handle
    obtain h | h := hb.runs m hm hd hlive
    · rcases hr : body m with ⟨s | a, n⟩ <;> rcases hr' : body (m.coupled κ) with ⟨res, n'⟩ <;>
        rw [hr, hr'] at h <;> obtain ⟨rfl, rfl, hnd, hnb⟩ := h
      · dsimp only
        split
        · rw [hr] at hn
          exact ho.runs n hn hnd hnb
        · exact .inl ⟨rfl, rfl, hnd, hnb⟩
      · exact .inl ⟨rfl, rfl, hnd, hnb⟩
    · rcases hr : body m with ⟨s | a, n⟩ <;> rw [hr] at h hn
      · dsimp only
        split
        · exact .inr (h.first ho.onward hn)
        · refine .inr ?_
          rcases hr' : body (m.coupled κ) with ⟨s' | a', n'⟩ <;> rw [hr'] at h hn' <;> dsimp only
          · split
            · exact h.second (ho.onward.leads n' hn')
            · exact h.second (.refl n')
          · exact h.second (.refl n')
      · exact .inr ⟨h.demanded, nofun⟩

theorem inFrame (frame : Frame) {x : Run α} (hx : InStep κ allowed x) :
    InStep κ allowed (Run.inFrame frame x) where
  onward := hx.onward.inFrame frame
  runs m hm hd hb := by
    obtain h | h := hx.runs { m with frame } hm hd hb
    · refine .inl ⟨h.result, ?_, h.undemanded, h.live⟩
      exact congrArg (fun n : Machine => { n with frame := m.frame }) h.machine
    · exact .inr ⟨h.demanded, fun hd hp => (h.overtaken hd hp).imp_right fun h => { h with }⟩

theorem closed (hawait : ∀ prompt, InStep κ allowed (Run.await prompt))
    (hline : InStep κ allowed (Run.ofRead false Feed.readLine))
    (hall : allowed → InStep κ allowed (Run.ofRead false Feed.readAll)) :
    Closed allowed (fun {α} => InStep κ allowed (α := α)) where
  pure a := .of_together (.pure a) (fun _ => rfl) (fun _ => rfl) fun _ => rfl
  bind := bind
  stop hs := .of_together (.stop hs) (fun _ => rfl) (fun _ => rfl) fun _ => rfl
  look hf := {
    onward := (Onward.closed allowed).look fun names frame seed hn =>
      (hf names frame seed hn).onward
    runs := fun m hm => (hf m.names m.frame m.seed hm).runs m hm }
  assign name value := by
    refine .of_together ((Onward.closed allowed).assign name value) (fun m => ?_) (fun m => ?_)
      fun m => ?_ <;> unfold Program.assign Run.change <;> dsimp only [Machine.coupled] <;>
      split <;> rfl
  define line name params _ hb :=
    .of_together ((Onward.closed allowed).define line name params hb) (fun _ => rfl) (fun _ => rfl)
      fun _ => rfl
  emit text := .of_together (.emit text) (fun _ => rfl) (fun _ => rfl) fun _ => rfl
  emitError text :=
    .of_together ((Onward.closed allowed).emitError text) (fun _ => rfl) (fun _ => rfl) fun _ => rfl
  tick ms :=
    .of_together ((Onward.closed allowed).tick ms) (fun _ => rfl) (fun _ => rfl) fun _ => rfl
  ask prompt := by
    rw [Run.ask_eq]
    split
    · exact .bind (.of_together (.emit prompt) (fun _ => rfl) (fun _ => rfl) fun _ => rfl) fun _ =>
        hawait prompt
    · exact hawait prompt
  readLine := hline
  readAll := hall
  handle := handle
  inFrame := inFrame

end InStep

end Rerun.Program
