/-!
# Dictionaries in key order

A dictionary is the list of its entries in increasing key order, the order in which every
document of the cluster interface is written and hashed. Keys are compared by code point,
which is also the order of their UTF-8 bytes.

## Main results

* `Dict.find?_insert_self`, `Dict.find?_insert_of_ne`: what a look-up sees after an insertion.
* `Dict.insert_insert_self`: a second insertion under one key replaces the first.
-/

namespace NodeFeatureOperator

/-- A finite map from text keys, kept as the list of its entries. -/
abbrev Dict (α : Type) := List (String × α)

namespace Dict

variable {α : Type}

/-- The value of the first entry under `key`. -/
def find? (key : String) : Dict α → Option α
  | [] => none
  | (k, v) :: rest => if k = key then some v else find? key rest

/-- Puts `value` under `key`, at its place in the key order; an entry under the same key is
replaced where it stands. -/
def insert (key : String) (value : α) : Dict α → Dict α
  | [] => [(key, value)]
  | (k, v) :: rest =>
    if k = key then (key, value) :: rest
    else if key < k then (key, value) :: (k, v) :: rest
    else (k, v) :: insert key value rest

/-- Drops the first entry under `key`. -/
def erase (key : String) : Dict α → Dict α
  | [] => []
  | (k, v) :: rest => if k = key then rest else (k, v) :: erase key rest

/-- The dictionary of a list of entries; of two entries under one key the later counts. -/
def ofEntries (entries : List (String × α)) : Dict α :=
  entries.foldl (fun d e => insert e.1 e.2 d) []

/-- The entries whose value is present. -/
def present (entries : List (String × Option α)) : Dict α :=
  entries.filterMap fun e => e.2.map fun v => (e.1, v)

/-- Changes every value by `f`. -/
def mapValues {β : Type} (f : α → β) (d : Dict α) : Dict β :=
  d.map fun e => (e.1, f e.2)

@[simp] theorem find?_nil (key : String) : find? key ([] : Dict α) = none := rfl

theorem find?_cons (key k : String) (v : α) (rest : Dict α) :
    find? key ((k, v) :: rest) = if k = key then some v else find? key rest := rfl

/-- A look-up finds what was just inserted. -/
@[simp] theorem find?_insert_self (key : String) (value : α) (d : Dict α) :
    find? key (insert key value d) = some value := by
  induction d with
  | nil => simp [insert, find?]
  | cons e rest ih =>
    obtain ⟨k, v⟩ := e
    simp only [insert]
    split
    · simp [find?]
    · split
      · simp [find?]
      · next hne _ => simp [find?, hne, ih]

/-- An insertion leaves the other keys alone. -/
theorem find?_insert_of_ne {key other : String} (value : α) (d : Dict α) (h : other ≠ key) :
    find? other (insert key value d) = find? other d := by
  induction d with
  | nil => simp [insert, find?, Ne.symm h]
  | cons e rest ih =>
    obtain ⟨k, v⟩ := e
    simp only [insert]
    split
    · next heq => simp [find?, heq, Ne.symm h]
    · split
      · simp [find?, Ne.symm h]
      · simp [find?, ih]

/-- A second insertion under one key replaces the first. -/
@[simp] theorem insert_insert_self (key : String) (first second : α) (d : Dict α) :
    insert key second (insert key first d) = insert key second d := by
  induction d with
  | nil => simp [insert]
  | cons e rest ih =>
    obtain ⟨k, v⟩ := e
    simp only [insert]
    split
    · simp [insert]
    · split
      · simp [insert]
      · next hne hlt => simp [insert, hne, hlt, ih]

end Dict

end NodeFeatureOperator
