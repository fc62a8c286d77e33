/-!
Lists of keys with values, in the order in which the keys came. A key that is set again keeps its
place; a key that is dropped and set again goes to the end.
-/

namespace Rerun.Assoc

variable {α β : Type} [DecidableEq α]

def put (xs : List (α × β)) (key : α) (value : β) : List (α × β) :=
  match xs with
  | [] => [(key, value)]
  | (k, v) :: rest => if k = key then (key, value) :: rest else (k, v) :: put rest key value

def drop (xs : List (α × β)) (key : α) : List (α × β) :=
  xs.filter fun e => e.1 ≠ key

@[simp] theorem put_nil (key : α) (value : β) : put [] key value = [(key, value)] := rfl

@[simp] theorem lookup_put_self (xs : List (α × β)) (key : α) (value : β) :
    (put xs key value).lookup key = some value := by
  induction xs with
  | nil => simp [put]
  | cons e rest ih =>
      obtain ⟨k, v⟩ := e
      by_cases h : k = key
      · simp [put, h]
      · have hk : (key == k) = false := by simp [Ne.symm h]
        simp [put, h, List.lookup_cons, hk, ih]

theorem lookup_put_of_ne (xs : List (α × β)) {key other : α} (value : β) (h : other ≠ key) :
    (put xs key value).lookup other = xs.lookup other := by
  have hk : (other == key) = false := by simp [h]
  induction xs with
  | nil => simp [put, List.lookup_cons, hk]
  | cons e rest ih =>
      obtain ⟨k, v⟩ := e
      by_cases hkey : k = key
      · simp [put, hkey, List.lookup_cons, hk]
      · by_cases ho : other = k
        · simp [put, hkey, ho]
        · have hok : (other == k) = false := by simp [ho]
          simp [put, hkey, List.lookup_cons, hok, ih]

@[simp] theorem lookup_drop_self (xs : List (α × β)) (key : α) :
    (drop xs key).lookup key = none := by
  induction xs with
  | nil => simp [drop]
  | cons e rest ih =>
      obtain ⟨k, v⟩ := e
      by_cases h : k = key
      · simpa [drop, h] using ih
      · have hk : (key == k) = false := by simp [Ne.symm h]
        have : drop ((k, v) :: rest) key = (k, v) :: drop rest key := by simp [drop, h]
        simp [this, List.lookup_cons, hk, ih]

theorem lookup_drop_of_ne (xs : List (α × β)) {key other : α} (h : other ≠ key) :
    (drop xs key).lookup other = xs.lookup other := by
  induction xs with
  | nil => simp [drop]
  | cons e rest ih =>
      obtain ⟨k, v⟩ := e
      by_cases hkey : k = key
      · have hd : drop ((k, v) :: rest) key = drop rest key := by simp [drop, hkey]
        have ho : (other == k) = false := by simp [hkey, h]
        simp [hd, List.lookup_cons, ho, ih]
      · have hd : drop ((k, v) :: rest) key = (k, v) :: drop rest key := by simp [drop, hkey]
        by_cases ho : other = k
        · simp [hd, ho]
        · have hok : (other == k) = false := by simp [ho]
          simp [hd, List.lookup_cons, hok, ih]

end Rerun.Assoc
