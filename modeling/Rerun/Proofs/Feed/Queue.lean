import Rerun.StoredQueue

/-!
What the clients of a stored queue see of it, whatever they did before. The queue holds the values
that it was created with and those that were appended, its cursor stays among them, and reading from
the start gives all of them (`created_serves`). The invariant is `StoredQueue.Holds`: it needs that
no client knows the place of the values, which is so because a client that asks for them is given a
list at a new place.
-/

namespace Rerun

namespace StoredQueue

variable {m : StoredQueue} {values : List String}

/-! ### The values in memory -/

/-- The memory holds these values for the queue, as texts, at a place that no client knows. -/
structure Holds (values : List String) (m : StoredQueue) : Prop where
  own : m.lists[m.own]? = some (values.map .str)
  within : m.cursor ≤ values.length
  apart : m.own ∉ m.known
  /-- Clients know lists that there are, so that a new one is at none of their places. -/
  there : ∀ place ∈ m.known, place < m.lists.length

theorem map_text_map_str (values : List String) :
    (values.map Value.str).map Value.text = values := by
  rw [List.map_map]
  exact List.map_id values

theorem Holds.own_lt (h : m.Holds values) : m.own < m.lists.length :=
  (List.getElem?_eq_some_iff.mp h.own).1

theorem Holds.getD_own (h : m.Holds values) : m.lists.getD m.own [] = values.map .str := by
  rw [List.getD_eq_getElem?_getD, h.own]
  rfl

theorem Holds.queue_eq (h : m.Holds values) : m.queue = { values, cursor := m.cursor } := by
  rw [queue, h.getD_own, map_text_map_str]

theorem Holds.move (h : m.Holds values) {n : Nat} (hn : n ≤ values.length) :
    Holds values { m with cursor := n } where
  own := h.own
  within := hn
  apart := h.apart
  there := h.there

theorem Holds.store (h : m.Holds values) {q : InputQueue} (hq : q.cursor ≤ q.values.length) :
    (m.store q).Holds q.values where
  own := List.getElem?_set_self h.own_lt
  within := hq
  apart := h.apart
  there place hplace := by
    have hlt := h.there place hplace
    simpa [StoredQueue.store] using hlt

/-- With the same values, storing a queue moves the cursor and does nothing else. -/
theorem Holds.store_eq (h : m.Holds values) (n : Nat) :
    m.store { values, cursor := n } = { m with cursor := n } := by
  have hsame : m.lists.set m.own (values.map .str) = m.lists := by
    apply List.ext_getElem?
    intro i
    rw [List.getElem?_set]
    split
    · next heq =>
        subst heq
        rw [if_pos h.own_lt, h.own]
    · rfl
  simp only [StoredQueue.store, hsame]

/-! ### One use -/

theorem Holds.next_eq (h : m.Holds values) : m.perform .next =
    match values[m.cursor]? with
    | some v => (.ok (.value v), { m with cursor := m.cursor + 1 })
    | none => (.ok .nothing, m) := by
  rw [StoredQueue.perform, h.queue_eq, InputQueue.next]
  dsimp only
  cases values[m.cursor]? with
  | some v =>
      dsimp only
      rw [h.store_eq]
      rfl
  | none =>
      dsimp only
      rw [h.store_eq]
      rfl

theorem Holds.rewind (h : m.Holds values) :
    m.perform .rewind = (.ok .nothing, { m with cursor := 0 }) := by
  rw [StoredQueue.perform, h.queue_eq, InputQueue.rewind, h.store_eq]

theorem Holds.markConsumed (h : m.Holds values) (n : Int) : m.perform (.markConsumed n) =
    (.ok .nothing, { m with cursor := min n.toNat values.length }) := by
  rw [StoredQueue.perform, h.queue_eq, InputQueue.markConsumed, h.store_eq]

/-- The texts that a use adds to the values: an appended value has one if it can be written. -/
def Use.appended : Use → List String
  | .append v => if v.isWritable then [v.text] else []
  | _ => []

theorem Holds.append (h : m.Holds values) (v : Value) :
    (m.perform (.append v)).2.Holds (values ++ (Use.append v).appended) := by
  by_cases hv : v.isWritable = true
  · have hcursor : m.cursor ≤ (values ++ [v.text]).length := by
      rw [List.length_append]
      exact Nat.le_add_right_of_le h.within
    have hstored := h.store (q := { values := values ++ [v.text], cursor := m.cursor }) hcursor
    simpa [perform, Value.queued, Use.appended, hv, h.queue_eq, InputQueue.append] using hstored
  · simpa [perform, Value.queued, Use.appended, hv] using h

theorem Holds.lend (h : m.Holds values) : (m.perform .values).2.Holds values where
  own := by
    show (m.lists ++ [m.lists.getD m.own []])[m.own]? = _
    rw [List.getElem?_append_left h.own_lt]
    exact h.own
  within := h.within
  apart := by
    simp only [perform, List.mem_append, List.mem_singleton, not_or]
    exact ⟨h.apart, Nat.ne_of_lt h.own_lt⟩
  there place hplace := by
    simp only [perform, List.mem_append, List.mem_singleton, List.length_append,
      List.length_singleton] at hplace ⊢
    rcases hplace with hknown | rfl
    · exact Nat.lt_succ_of_lt (h.there place hknown)
    · omega

theorem Holds.edit (h : m.Holds values) (place : Nat) (contents : List Value) :
    (m.perform (.edit place contents)).2.Holds values := by
  by_cases hknown : place ∈ m.known
  · have hne : place ≠ m.own := by
      rintro rfl
      exact h.apart hknown
    simp only [perform, if_pos hknown]
    refine ⟨?_, h.within, h.apart, fun p hp => ?_⟩
    · show (m.lists.set place contents)[m.own]? = _
      rw [List.getElem?_set_ne hne]
      exact h.own
    · show p < (m.lists.set place contents).length
      rw [List.length_set]
      exact h.there p hp
  · simpa [perform, hknown] using h

theorem Holds.perform (h : m.Holds values) (u : Use) :
    (m.perform u).2.Holds (values ++ u.appended) := by
  cases u with
  | append v => exact h.append v
  | next =>
      simp only [Use.appended, List.append_nil, h.next_eq]
      cases hv : values[m.cursor]? with
      | some v => exact h.move (List.getElem?_eq_some_iff.mp hv).1
      | none => exact h
  | rewind =>
      simp only [Use.appended, List.append_nil, h.rewind]
      exact h.move (Nat.zero_le _)
  | markConsumed n =>
      simp only [Use.appended, List.append_nil, h.markConsumed]
      exact h.move (Nat.min_le_right _ _)
  | values =>
      simp only [Use.appended, List.append_nil]
      exact h.lend
  | edit place contents =>
      simp only [Use.appended, List.append_nil]
      exact h.edit place contents

/-- Were the place of the values known to a client, an edit would reach them. -/
example : let m : StoredQueue := { lists := [[.str "a"]], own := 0, known := [0] }
    (m.perform (.edit 0 [])).2.queue.values = [] := rfl

/-! ### Use after use -/

theorem Holds.run (h : m.Holds values) (uses : List Use) :
    (m.run uses).2.Holds (values ++ uses.flatMap Use.appended) := by
  induction uses generalizing m values with
  | nil => simpa [StoredQueue.run] using h
  | cons u uses ih =>
      have hrest := ih (h.perform u)
      rw [List.append_assoc] at hrest
      exact hrest

/-- The answers of so many reads, over the values that are left. -/
def reads (left : List String) (k : Nat) : List (Except Failure Answer) :=
  (left.take k).map (fun v => .ok (.value v)) ++ List.replicate (k - left.length) (.ok .nothing)

theorem Holds.run_next (h : m.Holds values) (k : Nat) :
    m.run (List.replicate k .next) = (reads (values.drop m.cursor) k,
      { m with cursor := min (m.cursor + k) values.length }) := by
  induction k generalizing m with
  | zero =>
      have hmin : min (m.cursor + 0) values.length = m.cursor := Nat.min_eq_left h.within
      rw [hmin]
      simp [StoredQueue.run, reads]
  | succ k ih =>
      rw [List.replicate_succ, StoredQueue.run, h.next_eq]
      cases hv : values[m.cursor]? with
      | some v =>
          obtain ⟨hlt, hget⟩ := List.getElem?_eq_some_iff.mp hv
          dsimp only
          rw [ih (h.move hlt), List.drop_eq_getElem_cons hlt, hget]
          simp [reads, Nat.add_assoc, Nat.add_comm 1 k]
      | none =>
          have hle := List.getElem?_eq_none_iff.mp hv
          have hat : m.cursor = values.length := Nat.le_antisymm h.within hle
          dsimp only
          rw [ih h]
          simp [reads, hat, List.replicate_succ]

/-! ### Clients -/

/-- What clients see of a queue with these values. -/
structure Serves (values : List String) (m : StoredQueue) : Prop where
  values_eq : m.queue.values = values
  cursor_le : m.queue.cursor ≤ values.length
  /-- A client that asks for the values obtains them, in a list that nobody else knows. -/
  obtains : ∃ place, (m.perform .values).1 = .ok (.list place) ∧ place ≠ m.own ∧
    place ∉ m.known ∧ (m.perform .values).2.lists[place]? = some (values.map .str)
  next_eq : m.perform .next =
    match values[m.cursor]? with
    | some v => (.ok (.value v), { m with cursor := m.cursor + 1 })
    | none => (.ok .nothing, m)
  nothing_iff : (m.perform .next).1 = .ok .nothing ↔ m.queue.exhausted = true
  /-- A negative count is taken for none, and one beyond the last value for all of them. -/
  marks : ∀ n : Int,
    ((m.perform (.markConsumed n)).2.cursor : Int) = min (max 0 n) values.length
  /-- Reads from the start give the values in order, and then nothing. -/
  replays : ∀ k, m.run (.rewind :: List.replicate k .next) =
    (.ok .nothing :: reads values k, { m with cursor := min k values.length })

theorem Holds.exhausted_iff (h : m.Holds values) :
    m.queue.exhausted = true ↔ values[m.cursor]? = none := by
  rw [h.queue_eq, InputQueue.exhausted, decide_eq_true_iff, List.getElem?_eq_none_iff]

theorem Holds.obtains (h : m.Holds values) :
    ∃ place, (m.perform .values).1 = .ok (.list place) ∧ place ≠ m.own ∧ place ∉ m.known ∧
      (m.perform .values).2.lists[place]? = some (values.map .str) := by
  refine ⟨m.lists.length, rfl, ?_, fun hknown => ?_, ?_⟩
  · exact Nat.ne_of_gt h.own_lt
  · exact Nat.lt_irrefl _ (h.there _ hknown)
  · show (m.lists ++ [m.lists.getD m.own []])[m.lists.length]? = _
    rw [List.getElem?_concat_length, h.getD_own]

theorem Holds.replays (h : m.Holds values) (k : Nat) :
    m.run (.rewind :: List.replicate k .next) =
      (.ok .nothing :: reads values k, { m with cursor := min k values.length }) := by
  rw [StoredQueue.run, h.rewind, (h.move (Nat.zero_le _)).run_next]
  simp

theorem Holds.marks (h : m.Holds values) (n : Int) :
    ((m.perform (.markConsumed n)).2.cursor : Int) = min (max 0 n) values.length := by
  rw [h.markConsumed]
  dsimp only
  omega

theorem Holds.serves (h : m.Holds values) : m.Serves values where
  values_eq := by rw [h.queue_eq]
  cursor_le := h.within
  obtains := h.obtains
  next_eq := h.next_eq
  nothing_iff := by
    rw [h.exhausted_iff, h.next_eq]
    cases values[m.cursor]? with
    | some v => simp
    | none => simp
  marks := h.marks
  replays := h.replays

/-! ### New queues -/

theorem mapM_queued (values : List Value) :
    values.mapM Value.queued = .ok (values.map Value.text) ∨
      values.mapM Value.queued = .error (.badValue Text.writeLimitMessage) ∧
        ∃ v ∈ values, v.isWritable = false := by
  induction values with
  | nil => exact .inl rfl
  | cons v values ih =>
      rw [List.mapM_cons, Value.queued]
      cases hv : v.isWritable with
      | false => exact .inr ⟨rfl, v, List.mem_cons_self, hv⟩
      | true =>
          rcases ih with hall | ⟨hfails, w, hw, hunwritable⟩
          · left
            rw [hall]
            rfl
          · right
            rw [hfails]
            exact ⟨rfl, w, List.mem_cons_of_mem v hw, hunwritable⟩

theorem holds_ofTexts (lists : List (List Value)) (texts : List String) :
    (ofTexts lists texts).Holds texts where
  own := List.getElem?_concat_length
  within := Nat.zero_le _
  apart := by simp [ofTexts]
  there place hplace := by
    have hlt : place < lists.length := List.mem_range.mp hplace
    simp only [ofTexts, List.length_append]
    exact Nat.lt_add_right 1 hlt

/-- Whatever is done with a queue and with the lists that its clients know, the queue serves the
values that it was created with and after them those that were appended. There is a queue unless one
of its first values cannot be written. -/
theorem created_serves (lists : List (List Value)) (values : Option (List Value)) :
    (∃ m, create lists values = .ok m ∧ ∀ uses : List Use, (m.run uses).2.Serves
      ((values.getD []).map Value.text ++ uses.flatMap Use.appended)) ∨
    create lists values = .error (.badValue Text.writeLimitMessage) ∧
      ∃ v ∈ values.getD [], v.isWritable = false := by
  rcases mapM_queued (values.getD []) with hall | ⟨hfails, hunwritable⟩
  · left
    refine ⟨ofTexts lists ((values.getD []).map Value.text), ?_, fun uses => ?_⟩
    · rw [create, hall]
      rfl
    · exact ((holds_ofTexts lists _).run uses).serves
  · right
    refine ⟨?_, hunwritable⟩
    rw [create, hfails]
    rfl

end StoredQueue

end Rerun
