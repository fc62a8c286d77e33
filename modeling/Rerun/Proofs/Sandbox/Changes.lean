import Rerun.Proofs.Sandbox.Safe

/-!
The changes that operations make to the tables of the sandbox, one by one: each keeps it sound, and
none touches what other clients hold.
-/

namespace Rerun

namespace Table

variable {α : Type} {xs : List α} {x y : α} {i j : Nat}

theorem getElem?_modify_eq_some {f : α → α} : (xs.modify i f)[j]? = some y ↔
    ∃ x, xs[j]? = some x ∧ y = if i = j then f x else x := by
  rw [List.getElem?_modify]
  cases xs[j]? with
  | none => simp
  | some x => by_cases h : i = j <;> simp [h, eq_comm]

theorem getElem?_modify_eq_none {f : α → α} : (xs.modify i f)[j]? = none ↔ xs[j]? = none := by
  rw [List.getElem?_modify]
  cases xs[j]? <;> simp

theorem map_modify {β : Type} {f : α → α} {g : α → β} (hf : ∀ x, g (f x) = g x) (xs : List α)
    (i : Nat) : (xs.modify i f).map g = xs.map g := by
  refine List.ext_getElem? fun j => ?_
  rw [List.getElem?_map, List.getElem?_map, List.getElem?_modify]
  cases xs[j]? with
  | none => rfl
  | some x => by_cases hj : i = j <;> simp [hj, hf]

theorem getElem?_of_map_eq {β : Type} {g : α → β} {ys : List α} (h : ys.map g = xs.map g)
    (hx : xs[i]? = some x) : ∃ y, ys[i]? = some y ∧ g y = g x := by
  have hi := congrArg (·[i]?) h
  simp only [List.getElem?_map, hx, Option.map_some] at hi
  exact Option.map_eq_some_iff.mp hi

theorem getElem?_concat_eq_some : (xs ++ [x])[j]? = some y ↔
    xs[j]? = some y ∨ j = xs.length ∧ y = x := by
  rw [List.getElem?_append]
  split
  · rename_i h
    have hj : j ≠ xs.length := Nat.ne_of_lt h
    simp [hj]
  · rename_i h
    have hnone : xs[j]? = none := List.getElem?_eq_none (Nat.le_of_not_lt h)
    rw [hnone]
    cases hk : j - xs.length with
    | zero =>
        have hj : j = xs.length := by omega
        simp [hj, eq_comm]
    | succ k =>
        have hj : j ≠ xs.length := by omega
        simp [hj]

theorem getElem?_concat_of_some (h : xs[j]? = some y) : (xs ++ [x])[j]? = some y :=
  getElem?_concat_eq_some.mpr (.inl h)

end Table

namespace Assoc

variable {α β : Type} [DecidableEq α]

theorem lookup_put (xs : List (α × β)) (key other : α) (value : β) :
    (put xs key value).lookup other = if other = key then some value else xs.lookup other := by
  split
  · rename_i h
    rw [h, lookup_put_self]
  · rename_i h
    exact lookup_put_of_ne xs value h

theorem lookup_drop (xs : List (α × β)) (key other : α) :
    (drop xs key).lookup other = if other = key then none else xs.lookup other := by
  split
  · rename_i h
    rw [h, lookup_drop_self]
  · rename_i h
    exact lookup_drop_of_ne xs h

theorem lookup_of_lookup_drop {xs : List (α × β)} {key other : α} {value : β}
    (h : (drop xs key).lookup other = some value) : xs.lookup other = some value := by
  rw [lookup_drop] at h
  split at h
  · exact absurd h nofun
  · exact h

theorem lookup_of_lookup_put {xs : List (α × β)} {key other : α} {value found : β}
    (h : (put xs key value).lookup other = some found) :
    other = key ∧ found = value ∨ xs.lookup other = some found := by
  rw [lookup_put] at h
  split at h
  · exact .inl ⟨‹_›, (Option.some.inj h).symm⟩
  · exact .inr h

theorem mem_put {xs : List (α × β)} {key : α} {value : β} {e : α × β} (h : e ∈ put xs key value) :
    e ∈ xs ∨ e = (key, value) := by
  induction xs with
  | nil => exact .inr (List.mem_singleton.mp h)
  | cons a rest ih =>
      unfold put at h
      split at h
      · exact (List.mem_cons.mp h).symm.imp_left (List.mem_cons_of_mem a)
      · obtain rfl | h := List.mem_cons.mp h
        · exact .inl List.mem_cons_self
        · exact (ih h).imp_left (List.mem_cons_of_mem a)

theorem keys_put (xs : List (α × β)) (key : α) (value : β) :
    (put xs key value).map (·.1) =
      if key ∈ xs.map (·.1) then xs.map (·.1) else xs.map (·.1) ++ [key] := by
  induction xs with
  | nil => rfl
  | cons e rest ih =>
      by_cases h : e.1 = key
      · simp [put, h]
      · have hmem : key ∈ (e :: rest).map (·.1) ↔ key ∈ rest.map (·.1) := by
          simp only [List.map_cons, List.mem_cons]
          exact ⟨fun hk => hk.resolve_left (Ne.symm h), .inr⟩
        rw [put, if_neg h, List.map_cons, ih]
        simp only [hmem]
        split
        · rfl
        · rfl

theorem nodup_keys_put {xs : List (α × β)} (h : (xs.map (·.1)).Nodup) (key : α) (value : β) :
    ((put xs key value).map (·.1)).Nodup := by
  rw [keys_put]
  split
  · exact h
  · rename_i hkey
    exact List.nodup_append.mpr ⟨h, List.pairwise_singleton _ key, fun k hk k' hk' heq =>
      hkey (List.mem_singleton.mp hk' ▸ heq ▸ hk)⟩

theorem lookup_of_mem {xs : List (α × β)} (h : (xs.map (·.1)).Nodup) {e : α × β} (he : e ∈ xs) :
    xs.lookup e.1 = some e.2 := by
  induction xs with
  | nil => exact absurd he List.not_mem_nil
  | cons a rest ih =>
      rw [List.map_cons, List.nodup_cons] at h
      obtain rfl | he := List.mem_cons.mp he
      · exact List.lookup_cons_self
      · have hne : e.1 ≠ a.1 := fun heq => h.1 (heq ▸ List.mem_map_of_mem he)
        have hk : (e.1 == a.1) = false := beq_eq_false_iff_ne.mpr hne
        rw [List.lookup_cons, hk]
        exact ih h.2 he

theorem drop_of_lookup_none {xs : List (α × β)} {key : α} (h : xs.lookup key = none) :
    drop xs key = xs := by
  rw [List.lookup_eq_none_iff] at h
  refine List.filter_eq_self.mpr fun e he => ?_
  have hne : key ≠ e.1 := bne_iff_ne.mp (h e he)
  exact decide_eq_true (Ne.symm hne)

end Assoc

namespace Sandbox

open Table

variable {alone : Prop} {s : Sandbox}

/-! ### Processes and handles -/

namespace Sane

theorem folders (hs : s.Sane) {fs : Folders} (h : fs.Proper) : Sane { s with folders := fs } :=
  { hs with metadata := h }

theorem modifyChild (hs : s.Sane) (i : Nat) {f : Child → Child}
    (hf : ∀ c, (f c).folder = c.folder) : Sane { s with children := s.children.modify i f } := by
  refine { hs with handle := fun hx hc => ?_ }
  obtain ⟨y, hy, hfolder⟩ := hs.handle hx hc
  refine ⟨_, getElem?_modify_eq_some.mpr ⟨y, hy, rfl⟩, ?_⟩
  split
  · exact (hf y).trans hfolder
  · exact hfolder

theorem addChild (hs : s.Sane) (c : Child) : Sane { s with children := s.children ++ [c] } := by
  refine { hs with handle := fun hx hc => ?_ }
  obtain ⟨y, hy, hfolder⟩ := hs.handle hx hc
  exact ⟨y, getElem?_concat_of_some hy, hfolder⟩

theorem modifyHandle (hs : s.Sane) (i : Nat) {f : Handle → Handle}
    (hf : ∀ x, (f x).folder = x.folder)
    (hc : ∀ x c, s.handles[i]? = some x → (f x).child = some c → x.child = some c ∨
      ∃ y, s.children[c]? = some y ∧ y.folder = x.folder) :
    Sane { s with handles := s.handles.modify i f } := by
  refine { hs with record := fun hx => ?_, handle := fun hx hchild => ?_ }
  · obtain ⟨hbusy, y, hy, hfolder⟩ := hs.record hx
    refine ⟨hbusy, _, getElem?_modify_eq_some.mpr ⟨y, hy, rfl⟩, ?_⟩
    split
    · exact (hf y).trans hfolder
    · exact hfolder
  · obtain ⟨y, hy, rfl⟩ := getElem?_modify_eq_some.mp hx
    split at hchild
    · rename_i hi
      subst hi
      rw [if_pos rfl, hf]
      obtain hchild | hchild := hc y _ hy hchild
      · exact hs.handle hy hchild
      · exact hchild
    · rw [if_neg ‹_›]
      exact hs.handle hy hchild

theorem addHandle (hs : s.Sane) {x : Handle} (hx : x.child = none) :
    Sane { s with handles := s.handles ++ [x] } := by
  refine { hs with record := fun hr => ?_, handle := fun hy hc => ?_ }
  · obtain ⟨hbusy, y, hy, hfolder⟩ := hs.record hr
    exact ⟨hbusy, y, getElem?_concat_of_some hy, hfolder⟩
  · obtain hy | ⟨-, rfl⟩ := getElem?_concat_eq_some.mp hy
    · exact hs.handle hy hc
    · exact absurd (hx.symm.trans hc) nofun

theorem dropSession (hs : s.Sane) (k : String) :
    Sane { s with sessions := Assoc.drop s.sessions k } :=
  { hs with
    session := fun hk => hs.session (Assoc.lookup_of_lookup_drop hk)
    listed := fun he => hs.listed (List.mem_filter.mp he).1
    single := fun hk hk' =>
      hs.single (Assoc.lookup_of_lookup_drop hk) (Assoc.lookup_of_lookup_drop hk') }

theorem modifyRecord (hs : s.Sane) (i : Nat) {f : Record → Record}
    (hf : ∀ x, (f x).handle = x.handle ∧ (f x).folder = x.folder)
    (hbusy : ∀ x, (x.state = .busy → x.locked = true) → (f x).state = .busy →
      (f x).locked = true) : Sane { s with records := s.records.modify i f } := by
  refine { hs with session := fun hk => ?_, listed := fun he => ?_, record := fun hx => ?_ }
  · obtain ⟨y, hy, hfolder⟩ := hs.session hk
    refine ⟨_, getElem?_modify_eq_some.mpr ⟨y, hy, rfl⟩, ?_⟩
    split
    · rw [(hf y).2]
      exact hfolder
    · exact hfolder
  · rw [List.length_modify]
    exact hs.listed he
  · obtain ⟨y, hy, rfl⟩ := getElem?_modify_eq_some.mp hx
    split
    · rw [(hf y).1, (hf y).2]
      exact ⟨hbusy y (hs.record hy).1, (hs.record hy).2⟩
    · exact hs.record hy

theorem addRecord (hs : s.Sane) {x : Record} (hbusy : x.state ≠ .busy)
    (hh : ∃ h, s.handles[x.handle]? = some h ∧ h.folder = x.folder) :
    Sane { s with records := s.records ++ [x] } := by
  refine { hs with session := fun hk => ?_, listed := fun he => ?_, record := fun hy => ?_ }
  · obtain ⟨y, hy, hfolder⟩ := hs.session hk
    exact ⟨y, getElem?_concat_of_some hy, hfolder⟩
  · rw [List.length_append]
    exact Nat.lt_add_right 1 (hs.listed he)
  · obtain hy | ⟨-, rfl⟩ := getElem?_concat_eq_some.mp hy
    · exact hs.record hy
    · exact ⟨fun h => absurd h hbusy, hh⟩

theorem putSession (hs : s.Sane) {k : String} {r : Nat} {x : Record} (hr : s.records[r]? = some x)
    (hfolder : Registry.folderOf s.setup k = .ok x.folder)
    (hone : ∀ k', s.sessions.lookup k' ≠ some r) :
    Sane { s with sessions := Assoc.put s.sessions k r } := by
  refine { hs with session := fun hk => ?_, listed := fun he => ?_, single := fun hk hk' => ?_ }
  · obtain ⟨rfl, rfl⟩ | hk := Assoc.lookup_of_lookup_put hk
    · exact ⟨x, hr, hfolder⟩
    · exact hs.session hk
  · obtain he | rfl := Assoc.mem_put he
    · exact hs.listed he
    · exact (List.getElem?_eq_some_iff.mp hr).1
  · obtain ⟨h, hr'⟩ | h := Assoc.lookup_of_lookup_put hk <;>
      obtain ⟨h', hr''⟩ | h' := Assoc.lookup_of_lookup_put hk'
    · exact h.trans h'.symm
    · exact absurd (hr' ▸ h') (hone _)
    · exact absurd (hr'' ▸ h) (hone _)
    · exact hs.single h h'

theorem modifyRun (hs : s.Sane) (i : Nat) {f : RunInfo → RunInfo}
    (hf : ∀ x, (f x).key = x.key ∧ (f x).timeout = x.timeout ∧ (f x).runId = x.runId ∧
      (f x).owner = x.owner) : Sane { s with runs := s.runs.modify i f } := by
  refine { hs with context := fun hc => ?_, ids := ?_ }
  · obtain ⟨x, hx, hkey, howner, htimeout⟩ := hs.context hc
    refine ⟨_, getElem?_modify_eq_some.mpr ⟨x, hx, rfl⟩, ?_⟩
    split
    · rw [(hf x).1, (hf x).2.1, (hf x).2.2.2]
      exact ⟨hkey, howner, htimeout⟩
    · exact ⟨hkey, howner, htimeout⟩
  · obtain ⟨ns, hns, hsorted, hle⟩ := hs.ids
    refine ⟨ns, ?_, hsorted, hle⟩
    rw [← hns]
    exact Table.map_modify (fun x => (hf x).2.2.1) _ _

theorem addRun (hs : s.Sane) {x : RunInfo} (hid : x.runId = Run.idOf (s.drawnIds + 1)) :
    Sane { s with drawnIds := s.drawnIds + 1, runs := s.runs ++ [x] } := by
  refine { hs with context := fun hc => ?_, ids := ?_ }
  · obtain ⟨y, hy, hrest⟩ := hs.context hc
    exact ⟨y, getElem?_concat_of_some hy, hrest⟩
  · obtain ⟨ns, hns, hsorted, hle⟩ := hs.ids
    refine ⟨ns ++ [s.drawnIds + 1], ?_, ?_, fun n hn => ?_⟩
    · rw [List.map_append, List.map_append, hns, List.map_singleton, List.map_singleton, hid]
    · refine List.pairwise_append.mpr ⟨hsorted, List.pairwise_singleton _ _, fun n hn m hm => ?_⟩
      rw [List.mem_singleton.mp hm]
      exact Nat.lt_succ_of_le (hle n hn)
    · obtain hn | hn := List.mem_append.mp hn
      · exact Nat.le_succ_of_le (hle n hn)
      · exact Nat.le_of_eq (List.mem_singleton.mp hn)

theorem putContext (hs : s.Sane) {c : String} {i : Nat} {x : RunInfo} (hx : s.runs[i]? = some x)
    (hkey : x.key = Contexts.runKey c) (howner : x.owner = .engine)
    (htimeout : secondsOf s.setup.runTimeoutMs = .ok x.timeout) :
    Sane { s with contexts := Assoc.put s.contexts c i } := by
  refine { hs with context := fun h => ?_ }
  rw [Assoc.lookup_put] at h
  split at h
  · rename_i hcc
    obtain rfl := Option.some.inj h
    exact ⟨x, hx, hcc ▸ hkey, howner, htimeout⟩
  · exact hs.context h

theorem dropContext (hs : s.Sane) (c : String) :
    Sane { s with contexts := Assoc.drop s.contexts c } :=
  { hs with context := fun h => hs.context (Assoc.lookup_of_lookup_drop h) }

theorem modifyChallenge (hs : s.Sane) (i : Nat) {f : Challenge → Challenge}
    (hf : ∀ x, (f x).key = x.key) :
    Sane { s with challengeTable := s.challengeTable.modify i f } := by
  refine { hs with challenge := fun h => ?_, challengeKey := fun hx => ?_ }
  · rw [List.length_modify]
    exact hs.challenge h
  · obtain ⟨y, hy, rfl⟩ := getElem?_modify_eq_some.mp hx
    split
    · rw [hf]
      exact hs.challengeKey hy
    · exact hs.challengeKey hy

theorem addChallenge (hs : s.Sane) (n : String) {x : Challenge}
    (hx : x.key = Contexts.challengeKey n) :
    Sane { s with
      challengeTable := s.challengeTable ++ [x]
      challenges := Assoc.put s.challenges n s.challengeTable.length } := by
  refine { hs with challenge := fun h => ?_, challengeKey := fun hy => ?_ }
  · rw [List.length_append, List.length_singleton]
    rw [Assoc.lookup_put] at h
    split at h
    · rw [← Option.some.inj h]
      omega
    · exact Nat.lt_succ_of_lt (hs.challenge h)
  · obtain hy | ⟨-, rfl⟩ := getElem?_concat_eq_some.mp hy
    · exact hs.challengeKey hy
    · exact ⟨n, hx⟩

theorem dropChallenge (hs : s.Sane) (n : String) :
    Sane { s with challenges := Assoc.drop s.challenges n } :=
  { hs with challenge := fun h => hs.challenge (Assoc.lookup_of_lookup_drop h) }

end Sane

namespace Sound

theorem folders (hs : s.Sound) {fs : Folders} (h : fs.Proper) :
    Sound { s with folders := fs } ∧ Meanwhile alone s { s with folders := fs } :=
  ⟨{ hs.toSane.folders h with claim := hs.claim }, { Meanwhile.refl s with }⟩

theorem addChild (hs : s.Sound) (c : Child) :
    Sound { s with children := s.children ++ [c] } ∧
      Meanwhile alone s { s with children := s.children ++ [c] } :=
  ⟨{ hs.toSane.addChild c with claim := hs.claim }, { Meanwhile.refl s with }⟩

theorem modifyHandle (hs : s.Sound) (i : Nat) {f : Handle → Handle}
    (hf : ∀ x, (f x).folder = x.folder)
    (hc : ∀ x c, s.handles[i]? = some x → (f x).child = some c → x.child = some c ∨
      ∃ y, s.children[c]? = some y ∧ y.folder = x.folder) :
    Sound { s with handles := s.handles.modify i f } ∧
      Meanwhile alone s { s with handles := s.handles.modify i f } := by
  refine ⟨{ hs.toSane.modifyHandle i hf hc with claim := hs.claim },
    { Meanwhile.refl s with handle := fun {j x} hx => ?_ }⟩
  refine ⟨_, getElem?_modify_eq_some.mpr ⟨x, hx, rfl⟩, ?_⟩
  split
  · exact hf x
  · rfl

theorem addHandle (hs : s.Sound) {x : Handle} (hx : x.child = none) :
    Sound { s with handles := s.handles ++ [x] } ∧
      Meanwhile alone s { s with handles := s.handles ++ [x] } :=
  ⟨{ hs.toSane.addHandle hx with claim := hs.claim },
    { Meanwhile.refl s with handle := fun {_ y} hy => ⟨y, getElem?_concat_of_some hy, rfl⟩ }⟩

/-! ### Sessions -/

theorem modifyRecord (hs : s.Sound) (i : Nat) {f : Record → Record}
    (hf : ∀ x, (f x).handle = x.handle ∧ (f x).folder = x.folder ∧ (f x).locked = x.locked)
    (hbusy : ∀ x, (x.state = .busy → x.locked = true) → (f x).state = .busy → x.locked = true) :
    Sound { s with records := s.records.modify i f } ∧
      Meanwhile alone s { s with records := s.records.modify i f } := by
  constructor
  · refine { hs.toSane.modifyRecord i (fun x => ⟨(hf x).1, (hf x).2.1⟩) fun x h hb => ?_ with
             claim := fun hk hx hl => ?_ }
    · exact (hf x).2.2.trans (hbusy x h hb)
    obtain ⟨y, hy, rfl⟩ := getElem?_modify_eq_some.mp hx
    refine hs.claim hk hy ?_
    split at hl
    · exact (hf y).2.2 ▸ hl
    · exact hl
  · refine { Meanwhile.refl s with record := fun {r x} hx => ?_, unlocked := fun hy hn => ?_ }
    · refine ⟨_, getElem?_modify_eq_some.mpr ⟨x, hx, rfl⟩, ?_⟩
      split
      · exact hf x
      · exact ⟨rfl, rfl, rfl⟩
    · exact absurd (hy.symm.trans (getElem?_modify_eq_none.mpr hn)) nofun

theorem addRecord (hs : s.Sound) {x : Record} (hbusy : x.state ≠ .busy) (hl : x.locked = false)
    (hh : ∃ h, s.handles[x.handle]? = some h ∧ h.folder = x.folder) :
    Sound { s with records := s.records ++ [x] } ∧
      Meanwhile alone s { s with records := s.records ++ [x] } := by
  constructor
  · refine { hs.toSane.addRecord hbusy hh with claim := fun hk hy hl' => ?_ }
    obtain hy | ⟨-, rfl⟩ := getElem?_concat_eq_some.mp hy
    · exact hs.claim hk hy hl'
    · rw [hl] at hl'
      exact absurd hl' nofun
  · refine { Meanwhile.refl s with record := fun {r y} hy => ?_, unlocked := fun hy hn => ?_ }
    · exact ⟨y, getElem?_concat_of_some hy, rfl, rfl, rfl⟩
    · obtain hy | ⟨-, rfl⟩ := getElem?_concat_eq_some.mp hy
      · exact absurd (hy.symm.trans hn) nofun
      · exact hl

theorem dropSession (hs : s.Sound) (k : String) :
    Sound { s with sessions := Assoc.drop s.sessions k } ∧
      Meanwhile alone s { s with sessions := Assoc.drop s.sessions k } :=
  ⟨{ hs.toSane.dropSession k with
      claim := fun hk => hs.claim (Assoc.lookup_of_lookup_drop hk) },
    { (Meanwhile.refl s : Meanwhile alone s s) with
      session := fun hk => .inr (Assoc.lookup_of_lookup_drop hk)
      context := fun hc _ _ => .inl hc }⟩

theorem putSession {before : Sandbox} (hs : s.Sound) (hm : Meanwhile alone before s) {k : String}
    {r : Nat} {x : Record} (hr : s.records[r]? = some x) (hfree : x.locked = false)
    (hfolder : Registry.folderOf s.setup k = .ok x.folder)
    (hnew : before.records[r]? = none)
    (hone : ∀ k', s.sessions.lookup k' ≠ some r) :
    Sound { s with sessions := Assoc.put s.sessions k r } ∧
      Meanwhile alone before { s with sessions := Assoc.put s.sessions k r } := by
  constructor
  · refine { hs.toSane.putSession hr hfolder hone with claim := fun hk hy hl => ?_ }
    obtain ⟨-, rfl⟩ | hk := Assoc.lookup_of_lookup_put hk
    · obtain rfl := Option.some.inj (hr.symm.trans hy)
      rw [hfree] at hl
      exact absurd hl nofun
    · exact hs.claim hk hy hl
  · refine { hm with session := fun hk => ?_, context := fun hc hx hf => ?_ }
    · obtain ⟨-, rfl⟩ | hk := Assoc.lookup_of_lookup_put hk
      · exact .inl hnew
      · exact hm.session hk
    · refine (hm.context hc hx hf).imp_right fun h => ⟨h.1, fun r' hk => ?_⟩
      obtain ⟨-, rfl⟩ | hk := Assoc.lookup_of_lookup_put hk
      · exact hnew
      · exact h.2 r' hk

/-! ### Runs -/

theorem modifyRun (hs : s.Sound) (i : Nat) {f : RunInfo → RunInfo}
    (hf : ∀ x, (f x).source = x.source ∧ (f x).key = x.key ∧ (f x).timeout = x.timeout ∧
      (f x).runId = x.runId ∧ (f x).owner = x.owner ∧ (f x).inFlight = x.inFlight) :
    Sound { s with runs := s.runs.modify i f } ∧
      Meanwhile alone s { s with runs := s.runs.modify i f } := by
  have hrun {j : Nat} {x : RunInfo} (hx : s.runs[j]? = some x) :
      ∃ y, (s.runs.modify i f)[j]? = some y ∧ y.source = x.source ∧ y.key = x.key ∧
        y.timeout = x.timeout ∧ y.runId = x.runId ∧ y.owner = x.owner ∧
        y.inFlight = x.inFlight := by
    refine ⟨_, getElem?_modify_eq_some.mpr ⟨x, hx, rfl⟩, ?_⟩
    split
    · exact hf x
    · exact ⟨rfl, rfl, rfl, rfl, rfl, rfl⟩
  have hsane := hs.toSane.modifyRun i fun x =>
    ⟨(hf x).2.1, (hf x).2.2.1, (hf x).2.2.2.1, (hf x).2.2.2.2.1⟩
  constructor
  · refine { hsane with claim := fun hk hx hl => ?_ }
    obtain ⟨j, x, hc, hx, hflight⟩ := hs.claim hk hx hl
    obtain ⟨y, hy, -, -, -, -, -, hflight'⟩ := hrun hx
    exact ⟨j, y, hc, hy, hflight'.trans hflight⟩
  · exact { Meanwhile.refl s with
      run := hrun
      landed := fun hy hn => absurd (hy.symm.trans (getElem?_modify_eq_none.mpr hn)) nofun }

/-- A run is entered that is not in flight, with an identifier that was drawn for it. -/
theorem addRun (hs : s.Sound) {x : RunInfo} (hid : x.runId = Run.idOf (s.drawnIds + 1))
    (hx : x.inFlight = false) :
    Sound { s with drawnIds := s.drawnIds + 1, runs := s.runs ++ [x] } ∧
      Meanwhile alone s { s with drawnIds := s.drawnIds + 1, runs := s.runs ++ [x] } := by
  constructor
  · refine { hs.toSane.addRun hid with claim := fun hk hr hl => ?_ }
    obtain ⟨i, y, hc, hy, hf⟩ := hs.claim hk hr hl
    exact ⟨i, y, hc, getElem?_concat_of_some hy, hf⟩
  · refine { Meanwhile.refl s with run := fun {i y} hy => ?_, landed := fun hy hn => ?_ }
    · exact ⟨y, getElem?_concat_of_some hy, rfl, rfl, rfl, rfl, rfl, rfl⟩
    · obtain hy | ⟨-, rfl⟩ := getElem?_concat_eq_some.mp hy
      · exact absurd (hy.symm.trans hn) nofun
      · exact hx

/-! ### Contexts and challenges -/

theorem dropContext (hs : s.Sound) {c : String}
    (hc : ∀ i x, s.contexts.lookup c = some i → s.runs[i]? = some x → x.inFlight = false) :
    Sound { s with contexts := Assoc.drop s.contexts c } ∧
      Meanwhile alone s { s with contexts := Assoc.drop s.contexts c } := by
  have hkept {c' : String} {i : Nat} {x : RunInfo} (h : s.contexts.lookup c' = some i)
      (hx : s.runs[i]? = some x) (hf : x.inFlight = true) :
      (Assoc.drop s.contexts c).lookup c' = some i := by
    rw [Assoc.lookup_drop, if_neg]
    · exact h
    · rintro rfl
      rw [hc i x h hx] at hf
      exact absurd hf nofun
  refine ⟨{ hs.toSane.dropContext c with claim := fun hk hr hl => ?_ },
    { (Meanwhile.refl s : Meanwhile alone s s) with
      context := fun h hx hf => .inl (hkept h hx hf) }⟩
  obtain ⟨i, x, h, hx, hf⟩ := hs.claim hk hr hl
  exact ⟨i, x, hkept h hx hf, hx, hf⟩

theorem putContext (hs : s.Sound) {c : String} {i : Nat} {x : RunInfo}
    (hx : s.runs[i]? = some x) (hkey : x.key = Contexts.runKey c) (howner : x.owner = .engine)
    (htimeout : secondsOf s.setup.runTimeoutMs = .ok x.timeout)
    (hc : s.contexts.lookup c = none) :
    Sound { s with contexts := Assoc.put s.contexts c i } ∧
      Meanwhile alone s { s with contexts := Assoc.put s.contexts c i } := by
  have hkept {c' : String} {j : Nat} (h : s.contexts.lookup c' = some j) :
      (Assoc.put s.contexts c i).lookup c' = some j := by
    rw [Assoc.lookup_put, if_neg]
    · exact h
    · rintro rfl
      exact absurd (hc.symm.trans h) nofun
  refine ⟨{ hs.toSane.putContext hx hkey howner htimeout with claim := fun hk hr hl => ?_ },
    { (Meanwhile.refl s : Meanwhile alone s s) with context := fun h _ _ => .inl (hkept h) }⟩
  obtain ⟨j, y, h, hy, hf⟩ := hs.claim hk hr hl
  exact ⟨j, y, hkept h, hy, hf⟩

theorem modifyChallenge (hs : s.Sound) (i : Nat) {f : Challenge → Challenge}
    (hf : ∀ x, (f x).key = x.key) :
    Sound { s with challengeTable := s.challengeTable.modify i f } ∧
      Meanwhile alone s { s with challengeTable := s.challengeTable.modify i f } :=
  ⟨{ hs.toSane.modifyChallenge i hf with claim := hs.claim }, { Meanwhile.refl s with }⟩

theorem addChallenge (hs : s.Sound) (n : String) {x : Challenge}
    (hx : x.key = Contexts.challengeKey n) :
    Sound { s with
      challengeTable := s.challengeTable ++ [x]
      challenges := Assoc.put s.challenges n s.challengeTable.length } ∧
    Meanwhile alone s { s with
      challengeTable := s.challengeTable ++ [x]
      challenges := Assoc.put s.challenges n s.challengeTable.length } :=
  ⟨{ hs.toSane.addChallenge n hx with claim := hs.claim }, { Meanwhile.refl s with }⟩

theorem dropChallenge (hs : s.Sound) (n : String) :
    Sound { s with challenges := Assoc.drop s.challenges n } ∧
      Meanwhile alone s { s with challenges := Assoc.drop s.challenges n } :=
  ⟨{ hs.toSane.dropChallenge n with claim := hs.claim }, { Meanwhile.refl s with }⟩

end Sound

end Sandbox

end Rerun
