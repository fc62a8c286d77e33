import Rerun.Path
import Rerun.Proofs.Text.Lines

/-!
Where a text leads that is read as a path. A text that does not begin at the root of the file system
leads some steps up and then down through names (`Route`), whatever dots and empty names it holds;
the path that it names, seen from a folder, is that folder followed along the route.
-/

namespace Rerun

/-- So many steps up, and then down through names. -/
structure Route where
  ups : Nat
  names : List String
  deriving DecidableEq

namespace Route

/-- One more step: a step up takes the last name back, if there is one. -/
def step (r : Route) (name : String) : Route :=
  if name = "" || name = "." then r
  else if name = ".." then
    if r.names.isEmpty then { r with ups := r.ups + 1 } else { r with names := r.names.dropLast }
  else { r with names := r.names ++ [name] }

def ofText (text : String) : Route :=
  ((Text.splitAt '/' text.toList).map String.ofList).foldl step ⟨0, []⟩

/-- What is left of a folder after the steps up of a route, and then its names. -/
def partsFrom (r : Route) (base : Path) : List String :=
  base.parts.take (base.parts.length - r.ups) ++ r.names

/-- The steps up do not leave the working folder, if that is where they start. -/
def staysIn (r : Route) (base : Path) : Bool := base.inWork && r.ups ≤ base.parts.length

end Route

namespace Path

/-- A folder followed along a route. -/
def along (base : Path) (r : Route) : Path := ⟨r.staysIn base, r.partsFrom base⟩

theorem along_start (base : Path) : base.along ⟨0, []⟩ = base := by
  cases base
  simp [along, Route.staysIn, Route.partsFrom]

theorem step_up {p : Path} (hp : p.parts = []) : p.step ".." = ⟨false, []⟩ := by
  obtain ⟨inWork, parts⟩ := p
  obtain rfl : parts = [] := hp
  cases inWork <;> rfl

theorem step_back {p : Path} (hp : p.parts ≠ []) :
    p.step ".." = { p with parts := p.parts.dropLast } := by
  simp [step, hp]

theorem along_step (base : Path) (r : Route) (name : String) :
    (base.along r).step name = base.along (r.step name) := by
  by_cases hdot : name = "" || name = "."
  · rw [step, Route.step, if_pos hdot, if_pos hdot]
  by_cases hup : name = ".."
  · subst hup
    obtain ⟨ups, names⟩ := r
    cases names with
    | nil =>
        have hr : Route.step ⟨ups, []⟩ ".." = ⟨ups + 1, []⟩ := rfl
        rw [hr]
        by_cases hlt : ups < base.parts.length
        · have hne : (base.along ⟨ups, []⟩).parts ≠ [] := by
            intro h
            have := congrArg List.length h
            simp only [along, Route.partsFrom, List.append_nil, List.length_take,
              List.length_nil] at this
            omega
          have htake : (base.parts.take (base.parts.length - ups)).dropLast =
              base.parts.take (base.parts.length - (ups + 1)) := by
            rw [List.dropLast_eq_take, List.length_take, List.take_take]
            congr 1
            omega
          have hle : ups ≤ base.parts.length ∧ ups + 1 ≤ base.parts.length := by omega
          rw [step_back hne]
          simp only [along, Route.partsFrom, Route.staysIn, List.append_nil, htake, hle.1, hle.2]
        · have hnil : (base.along ⟨ups, []⟩).parts = [] := by
            simp only [along, Route.partsFrom, List.append_nil, List.take_eq_nil_iff]
            omega
          rw [step_up hnil]
          simp only [along, Route.partsFrom, Route.staysIn, List.append_nil, Path.mk.injEq]
          constructor
          · simp
            omega
          · rw [Nat.sub_eq_zero_of_le (by omega), List.take_zero]
    | cons n ns =>
        have hr : Route.step ⟨ups, n :: ns⟩ ".." = ⟨ups, (n :: ns).dropLast⟩ := rfl
        have hne : (base.along ⟨ups, n :: ns⟩).parts ≠ [] := by simp [along, Route.partsFrom]
        rw [hr, step_back hne]
        simp [along, Route.partsFrom, Route.staysIn, List.dropLast_append_of_ne_nil]
  · rw [step, Route.step, if_neg hdot, if_neg hdot, if_neg hup, if_neg hup]
    simp [along, Route.partsFrom, Route.staysIn]

theorem along_foldl (base : Path) (names : List String) (r : Route) :
    names.foldl step (base.along r) = base.along (names.foldl Route.step r) := by
  induction names generalizing r with
  | nil => rfl
  | cons name names ih =>
      rw [List.foldl_cons, List.foldl_cons, along_step]
      exact ih (r.step name)

/-- A text that does not begin at the root of the file system names the folder at the end of its
route. -/
theorem resolve_eq_along (base : Path) {text : String} (h : text.toList.head? ≠ some '/') :
    base.resolve text = base.along (.ofText text) := by
  have hfold := along_foldl base ((Text.splitAt '/' text.toList).map String.ofList) ⟨0, []⟩
  rw [along_start] at hfold
  rw [resolve, if_neg h]
  exact hfold

/-! ### Folders that lie in others -/

end Path

namespace Route

theorem ofText_name {text : String} (h : '/' ∉ text.toList) (hempty : text ≠ "")
    (hdot : text ≠ ".") (hup : text ≠ "..") : ofText text = ⟨0, [text]⟩ := by
  simp [ofText, Text.splitAt_of_not_mem h, step, hempty, hdot, hup]

end Route

/-! ### Names of folders -/

namespace Path

def IsName (text : String) : Prop := '/' ∉ text.toList ∧ text ≠ "" ∧ text ≠ "." ∧ text ≠ ".."

instance : DecidablePred IsName := fun _ => inferInstanceAs (Decidable (_ ∧ _))

theorem resolve_name (base : Path) {name : String} (h : IsName name) :
    base.resolve name = { base with parts := base.parts ++ [name] } := by
  obtain ⟨hslash, hempty, hdot, hup⟩ := h
  have hhead : name.toList.head? ≠ some '/' := fun h => hslash (List.mem_of_head? h)
  rw [resolve_eq_along base hhead, Route.ofText_name hslash hempty hdot hup]
  simp [along, Route.staysIn, Route.partsFrom]

theorem resolve_name_inj (base : Path) {name other : String} (h : IsName name) (h' : IsName other)
    (heq : base.resolve name = base.resolve other) : name = other := by
  rw [resolve_name base h, resolve_name base h', Path.mk.injEq] at heq
  exact (List.cons.inj (List.append_cancel_left heq.2)).1

end Path

end Rerun
