/-!
# Tables

A finite map from keys of any type, kept as the list of its entries in the order in which their
keys first came in.

## Main results

* `Table.find?_insert_self`, `Table.find?_insert_of_ne`: what a look-up sees after an insertion.
* `Table.find?_erase_self`, `Table.find?_erase_of_ne`: what it sees after a removal.
-/

namespace NodeFeatureOperator

/-- A finite map, kept as the list of its entries. -/
abbrev Table (κ α : Type) := List (κ × α)

namespace Table

variable {κ α : Type} [DecidableEq κ]

/-- The value of the first entry under `key`. -/
def find? (key : κ) : Table κ α → Option α
  | [] => none
  | (k, v) :: rest => if k = key then some v else find? key rest

/-- Puts `value` under `key`: in place of the first entry there, or else at the end. -/
def insert (key : κ) (value : α) : Table κ α → Table κ α
  | [] => [(key, value)]
  | (k, v) :: rest => if k = key then (key, value) :: rest else (k, v) :: insert key value rest

/-- Drops the entries under `key`. -/
def erase (key : κ) : Table κ α → Table κ α
  | [] => []
  | (k, v) :: rest => if k = key then erase key rest else (k, v) :: erase key rest

@[simp] theorem find?_nil (key : κ) : find? key ([] : Table κ α) = none := rfl

theorem find?_cons (key k : κ) (v : α) (rest : Table κ α) :
    find? key ((k, v) :: rest) = if k = key then some v else find? key rest := rfl

/-- A look-up finds what was just inserted. -/
@[simp] theorem find?_insert_self (key : κ) (value : α) (t : Table κ α) :
    find? key (insert key value t) = some value := by
  induction t with
  | nil => simp [insert, find?]
  | cons e rest ih =>
    obtain ⟨k, v⟩ := e
    by_cases h : k = key
    · simp [insert, find?, h]
    · simp [insert, find?, h, ih]

/-- An insertion leaves the other keys alone. -/
theorem find?_insert_of_ne {key other : κ} (value : α) (t : Table κ α) (h : other ≠ key) :
    find? other (insert key value t) = find? other t := by
  induction t with
  | nil => simp [insert, find?, Ne.symm h]
  | cons e rest ih =>
    obtain ⟨k, v⟩ := e
    by_cases hk : k = key
    · simp [insert, find?, hk, Ne.symm h]
    · simp [insert, find?, hk, ih]

/-- A look-up does not find what was just removed. -/
@[simp] theorem find?_erase_self (key : κ) (t : Table κ α) : find? key (erase key t) = none := by
  induction t with
  | nil => rfl
  | cons e rest ih =>
    obtain ⟨k, v⟩ := e
    by_cases h : k = key
    · simp [erase, h, ih]
    · simp [erase, find?, h, ih]

/-- A removal leaves the other keys alone. -/
theorem find?_erase_of_ne {key other : κ} (t : Table κ α) (h : other ≠ key) :
    find? other (erase key t) = find? other t := by
  induction t with
  | nil => rfl
  | cons e rest ih =>
    obtain ⟨k, v⟩ := e
    by_cases hk : k = key
    · simp [erase, find?, hk, Ne.symm h, ih]
    · simp [erase, find?, hk, ih]

/-- A removal changes nothing where there is nothing to remove. -/
theorem erase_of_find?_eq_none {key : κ} {t : Table κ α} (h : find? key t = none) :
    erase key t = t := by
  induction t with
  | nil => rfl
  | cons e rest ih =>
    obtain ⟨k, v⟩ := e
    by_cases hk : k = key
    · simp [find?, hk] at h
    · simp only [find?, hk, if_false] at h
      simp [erase, hk, ih h]

end Table

end NodeFeatureOperator
