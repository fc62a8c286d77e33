import Rerun.Folder

/-!
The folders after an operation on them. Metadata that can be read is an object in every folder that
only the registry has written to (`Folders.Proper`).
-/

namespace Rerun.Folders

variable {fs : Folders} {p q : Path} {f : Folder → Folder}

theorem find?_cons (k : Path) (v : Folder) (fs : Folders) (q : Path) :
    Folders.find? ((k, v) :: fs) q = if q = k then some v else fs.find? q := by
  by_cases hq : q = k
  · simp [find?, hq]
  · have hqk : (q == k) = false := by simp [hq]
    simp [find?, List.lookup_cons, hqk, hq]

theorem find?_update (fs : Folders) (p q : Path) (f : Folder → Folder) :
    (fs.update p f).find? q = if q = p then (fs.find? q).map f else fs.find? q := by
  induction fs with
  | nil => simp [update, find?]
  | cons e fs ih =>
      obtain ⟨k, v⟩ := e
      have hcons : update ((k, v) :: fs) p f =
          (k, if k = p then f v else v) :: update fs p f := by
        by_cases hk : k = p <;> simp [update, hk]
      rw [hcons, find?_cons, find?_cons, ih]
      by_cases hq : q = k
      · subst hq
        by_cases hp : q = p <;> simp [hp]
      · simp [hq]

theorem find?_append (fs gs : Folders) (q : Path) :
    Folders.find? (fs ++ gs) q = (fs.find? q).or (Folders.find? gs q) := by
  induction fs with
  | nil => simp [find?]
  | cons e fs ih =>
      obtain ⟨k, v⟩ := e
      rw [List.cons_append, find?_cons, find?_cons, ih]
      split <;> simp

theorem find?_remove (fs : Folders) (p q : Path) :
    (fs.remove p).find? q = if q.isWithin p then none else fs.find? q := by
  induction fs with
  | nil => simp [remove, find?]
  | cons e fs ih =>
      obtain ⟨k, v⟩ := e
      by_cases hk : k.isWithin p
      · have hcons : remove ((k, v) :: fs) p = remove fs p := by simp [remove, hk]
        rw [hcons, ih, find?_cons]
        by_cases hq : q = k
        · simp [hq, hk]
        · simp [hq]
      · have hcons : remove ((k, v) :: fs) p = (k, v) :: remove fs p := by simp [remove, hk]
        rw [hcons, find?_cons, ih, find?_cons]
        by_cases hq : q = k
        · simp [hq, hk]
        · simp [hq]

def ensure (fs : Folders) (p : Path) : Folders :=
  if has fs p then fs else fs ++ [(p, ({} : Folder))]

theorem make_eq_foldl (fs : Folders) (p : Path) : fs.make p = p.lineage.foldl ensure fs := rfl

theorem find?_ensure (fs : Folders) (p q : Path) :
    (fs.ensure p).find? q = (fs.find? q).or (if q = p then some {} else none) := by
  unfold ensure
  split
  · rename_i h
    split
    · rename_i hq
      rw [has, ← hq] at h
      obtain ⟨g, hg⟩ := Option.isSome_iff_exists.mp h
      simp [hg]
    · simp
  · rw [find?_append]
    congr 1
    rw [find?_cons]
    simp [find?]

/-- Making a folder changes none that is there, and the new ones are empty. -/
theorem find?_make (fs : Folders) (p q : Path) :
    (fs.make p).find? q = (fs.find? q).or (if q ∈ p.lineage then some {} else none) := by
  rw [make_eq_foldl]
  induction p.lineage generalizing fs with
  | nil => simp
  | cons a as ih =>
      rw [List.foldl_cons, ih, find?_ensure, Option.or_assoc]
      congr 1
      by_cases ha : q = a <;> by_cases has : q ∈ as <;> simp [ha, has]

theorem mem_lineage (p : Path) : p ∈ p.lineage := by
  simp only [Path.lineage, List.mem_map, List.mem_range]
  exact ⟨p.parts.length, by omega, by simp⟩

theorem has_make (fs : Folders) (p : Path) : (fs.make p).has p = true := by
  rw [has, find?_make, if_pos (mem_lineage p)]
  cases fs.find? p <;> rfl

@[simp] theorem has_update (fs : Folders) (p q : Path) (f : Folder → Folder) :
    (fs.update p f).has q = fs.has q := by
  rw [has, find?_update, has]
  split <;> simp

theorem has_revise (fs : Folders) (p : Path) (f : Folder → Folder) :
    (fs.revise p f).has p = true := by
  rw [revise, has_update, has_make]

theorem has_make_of_has {fs : Folders} {q : Path} (p : Path) (h : fs.has q = true) :
    (fs.make p).has q = true := by
  rw [has] at *
  rw [find?_make]
  obtain ⟨g, hg⟩ := Option.isSome_iff_exists.mp h
  simp [hg]

theorem has_revise_of_has {fs : Folders} {q : Path} (p : Path) (f : Folder → Folder)
    (h : fs.has q = true) : (fs.revise p f).has q = true := by
  rw [revise, has_update]
  exact has_make_of_has p h

theorem has_remove (fs : Folders) (p q : Path) :
    (fs.remove p).has q = (fs.has q && !q.isWithin p) := by
  rw [has, find?_remove, has]
  split <;> simp_all

/-! ### Metadata -/

/-- Metadata that can be read is an object. -/
def Proper (fs : Folders) : Prop :=
  ∀ p f j, fs.find? p = some f → f.metadata = some (some j) → ∃ fields, j = .obj fields

theorem proper_nil : Proper [] := nofun

theorem Proper.update (h : fs.Proper) (hf : ∀ g j, (f g).metadata = some (some j) →
    g.metadata = some (some j) ∨ ∃ fields, j = .obj fields) : (fs.update p f).Proper := by
  intro q g j hg hj
  rw [find?_update] at hg
  split at hg
  · obtain ⟨g', hg', rfl⟩ := Option.map_eq_some_iff.mp hg
    obtain hj' | hj' := hf g' j hj
    · exact h q g' j hg' hj'
    · exact hj'
  · exact h q g j hg hj

theorem Proper.make (h : fs.Proper) (p : Path) : (fs.make p).Proper := by
  intro q g j hg hj
  rw [find?_make, Option.or_eq_some_iff] at hg
  obtain hg | ⟨-, hg⟩ := hg
  · exact h q g j hg hj
  · split at hg
    · rw [← Option.some.inj hg] at hj
      exact absurd hj nofun
    · exact absurd hg nofun

theorem Proper.revise (h : fs.Proper) (hf : ∀ g j, (f g).metadata = some (some j) →
    g.metadata = some (some j) ∨ ∃ fields, j = .obj fields) : (fs.revise p f).Proper :=
  (h.make p).update hf

theorem Proper.remove (h : fs.Proper) (p : Path) : (fs.remove p).Proper := by
  intro q g j hg hj
  rw [find?_remove] at hg
  split at hg
  · exact absurd hg nofun
  · exact h q g j hg hj

/-! ### What was never written -/

section

variable {part : Folder → Option Content}

def Lacks (fs : Folders) (part : Folder → Option Content) (q : Path) : Prop :=
  (fs.find? q).bind part = none

theorem Lacks.update (h : fs.Lacks part q) (hf : q = p → ∀ g, part (f g) = part g) :
    (fs.update p f).Lacks part q := by
  rw [Lacks, find?_update]
  split
  · rename_i hq
    rw [Option.bind_map]
    exact (congrArg (fs.find? q).bind (funext (hf hq))).trans h
  · exact h

theorem Lacks.make (h : fs.Lacks part q) (hnone : part {} = none) (p : Path) :
    (fs.make p).Lacks part q := by
  rw [Lacks, find?_make]
  cases hq : fs.find? q with
  | none =>
      rw [Option.none_or]
      split
      · exact hnone
      · rfl
  | some g =>
      rw [Lacks, hq] at h
      exact h

theorem Lacks.revise (h : fs.Lacks part q) (hnone : part {} = none)
    (hf : q = p → ∀ g, part (f g) = part g) : (fs.revise p f).Lacks part q :=
  (h.make hnone p).update hf

theorem Lacks.remove (h : fs.Lacks part q) (p : Path) : (fs.remove p).Lacks part q := by
  rw [Lacks, find?_remove]
  split
  · rfl
  · exact h

end

/-! ### What is spared -/

/-- Nothing was shown or printed in a folder, if there is one. -/
def Blank (fs : Folders) (q : Path) : Prop := fs.Lacks (·.shown) q ∧ fs.Lacks (·.processLog) q

theorem Blank.update (h : fs.Blank q) (hq : q ≠ p) (f : Folder → Folder) :
    (fs.update p f).Blank q :=
  ⟨h.1.update fun heq => absurd heq hq, h.2.update fun heq => absurd heq hq⟩

theorem Blank.revise (h : fs.Blank q) (hq : q ≠ p) (f : Folder → Folder) :
    (fs.revise p f).Blank q :=
  ⟨h.1.revise rfl fun heq => absurd heq hq, h.2.revise rfl fun heq => absurd heq hq⟩

theorem Blank.remove (h : fs.Blank q) (p : Path) : (fs.remove p).Blank q :=
  ⟨h.1.remove p, h.2.remove p⟩

/-- Apart from a folder and what is in it, folders stay as they are, and those that are made are
empty. -/
structure Spares (p : Path) (fs gs : Folders) : Prop where
  blank {q : Path} : q ≠ p → fs.Blank q → gs.Blank q
  kept {q : Path} : q.isWithin p = false → fs.has q = true → gs.find? q = fs.find? q

theorem Spares.refl (p : Path) (fs : Folders) : Spares p fs fs := ⟨fun _ => id, fun _ _ => rfl⟩

theorem Spares.trans {gs hs : Folders} (h : Spares p fs gs) (h' : Spares p gs hs) :
    Spares p fs hs where
  blank hq hb := h'.blank hq (h.blank hq hb)
  kept hq hhas := (h'.kept hq (by rw [has, h.kept hq hhas]; exact hhas)).trans (h.kept hq hhas)

theorem ne_of_not_within (hq : q.isWithin p = false) : q ≠ p := by
  rintro rfl
  have hself : q.isWithin q = true := by simp [Path.isWithin]
  exact absurd (hself.symm.trans hq) nofun

theorem spares_update (p : Path) (fs : Folders) (f : Folder → Folder) :
    Spares p fs (fs.update p f) where
  blank hq hb := hb.update hq f
  kept hq _ := by rw [find?_update, if_neg (ne_of_not_within hq)]

theorem spares_revise (p : Path) (fs : Folders) (f : Folder → Folder) :
    Spares p fs (fs.revise p f) where
  blank hq hb := hb.revise hq f
  kept {q} hq hhas := by
    rw [revise, find?_update, if_neg (ne_of_not_within hq), find?_make, Option.or_of_isSome hhas]

theorem spares_remove (p : Path) (fs : Folders) : Spares p fs (fs.remove p) where
  blank _ hb := hb.remove p
  kept hq _ := by rw [find?_remove, hq]; rfl

end Rerun.Folders
