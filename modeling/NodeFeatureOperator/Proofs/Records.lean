import Mathlib.Data.List.Nodup
import NodeFeatureOperator.Dict

/-!
# Dictionaries as records

A dictionary whose keys are different is a function of its keys: what a look-up finds is the entry
under the key. One whose keys are in order is the dictionary of its entries, however they come
about: put in again one by one, they are it.

## Main definitions

* `Dict.Sorted`: the keys are in increasing order.

## Main results

* `Dict.find?_present`: what is found among the entries that are present.
* `Dict.eq_of_present_eq`: these determine the others, which are absent.
* `Dict.sorted_insert`: an insertion keeps the order.
* `Dict.insert_append`: after all other keys it adds the entry at the end.
-/

namespace NodeFeatureOperator

namespace Dict

variable {α : Type} {key : String}

/-! ### Look-ups -/

/-- What a look-up finds is an entry. -/
theorem mem_of_find? {d : Dict α} {v : α} (h : find? key d = some v) : (key, v) ∈ d := by
  induction d with
  | nil => cases h
  | cons e rest ih =>
      obtain ⟨k, u⟩ := e
      rw [find?_cons] at h
      split at h
      next hk =>
        obtain rfl := Option.some.inj h
        rw [hk]
        exact List.mem_cons_self
      · exact List.mem_cons_of_mem _ (ih h)

/-- Under different keys, every entry is found. -/
theorem find?_of_mem {d : Dict α} {v : α} (hd : (d.map Prod.fst).Nodup) (h : (key, v) ∈ d) :
    find? key d = some v := by
  induction d with
  | nil => cases h
  | cons e rest ih =>
      obtain ⟨k, u⟩ := e
      obtain ⟨hk, hrest⟩ := List.nodup_cons.mp hd
      rw [find?_cons]
      obtain heq | htail := List.mem_cons.mp h
      · obtain ⟨rfl, rfl⟩ := Prod.mk.inj heq
        exact if_pos rfl
      · rw [if_neg, ih hrest htail]
        rintro rfl
        exact hk (List.mem_map.mpr ⟨_, htail, rfl⟩)

/-- A look-up commutes with a change of all values. -/
theorem find?_mapValues {β : Type} (f : α → β) (key : String) (d : Dict α) :
    find? key (mapValues f d) = (find? key d).map f := by
  induction d with
  | nil => rfl
  | cons e rest ih =>
      obtain ⟨k, v⟩ := e
      rw [mapValues, List.map_cons, find?_cons, find?_cons]
      split
      · rfl
      · exact ih

/-- Nothing is found under a key that no entry has. -/
theorem find?_of_notMem {d : Dict α} (h : key ∉ d.map Prod.fst) : find? key d = none := by
  induction d with
  | nil => rfl
  | cons e rest ih =>
      obtain ⟨k, v⟩ := e
      rw [List.map_cons, List.mem_cons, not_or] at h
      rw [find?_cons, if_neg (Ne.symm h.1), ih h.2]

/-! ### Entries that are present -/

/-- The keys of the entries that are present stand in the order of all keys. -/
theorem keys_present_sublist (entries : List (String × Option α)) :
    ((present entries).map Prod.fst).Sublist (entries.map Prod.fst) := by
  induction entries with
  | nil => exact .slnil
  | cons e rest ih =>
      obtain ⟨k, v?⟩ := e
      cases v? with
      | none => exact ih.cons k
      | some v => exact ih.cons_cons k

/-- The entries that are present are those that have a value. -/
theorem mem_present_iff {entries : List (String × Option α)} {e : String × α} :
    e ∈ present entries ↔ (e.1, some e.2) ∈ entries := by
  refine List.mem_filterMap.trans ⟨?_, fun h => ⟨_, h, rfl⟩⟩
  rintro ⟨⟨k, v?⟩, hmem, heq⟩
  obtain ⟨v, rfl, rfl⟩ := Option.map_eq_some_iff.mp heq
  exact hmem

/-- The keys of the entries that are present are keys of entries. -/
theorem mem_keys_of_present {entries : List (String × Option α)}
    (h : key ∈ (present entries).map Prod.fst) : key ∈ entries.map Prod.fst :=
  (keys_present_sublist entries).subset h

/-- Of entries under different keys, a look-up among those that are present finds what each has. -/
theorem find?_present {entries : List (String × Option α)} {v? : Option α}
    (h : (entries.map Prod.fst).Nodup) (hv : (key, v?) ∈ entries) :
    find? key (present entries) = v? := by
  induction entries with
  | nil => cases hv
  | cons e rest ih =>
      obtain ⟨k, u?⟩ := e
      obtain ⟨hk, hrest⟩ := List.nodup_cons.mp h
      obtain heq | htail := List.mem_cons.mp hv
      · obtain ⟨rfl, rfl⟩ := Prod.mk.inj heq
        cases v? with
        | some v => exact if_pos rfl
        | none => exact find?_of_notMem fun hmem => hk (mem_keys_of_present hmem)
      · have hne : k ≠ key := by
          rintro rfl
          exact hk (List.mem_map.mpr ⟨_, htail, rfl⟩)
        cases u? with
        | some u => exact (if_neg hne).trans (ih hrest htail)
        | none => exact ih hrest htail

/-- Of entries under the same different keys, those that are present determine them all. -/
theorem eq_of_present_eq {entries entries' : List (String × Option α)}
    (hkeys : entries.map Prod.fst = entries'.map Prod.fst) (hnodup : (entries.map Prod.fst).Nodup)
    (h : present entries = present entries') : entries = entries' := by
  induction entries generalizing entries' with
  | nil => exact (List.map_eq_nil_iff.mp hkeys.symm).symm
  | cons e rest ih =>
      obtain ⟨k, v?⟩ := e
      obtain ⟨⟨_, v'?⟩, rest', rfl, rfl, hrest⟩ := List.map_eq_cons_iff.mp hkeys.symm
      have hnodup' := hkeys ▸ hnodup
      have hvalue : v? = v'? := by
        rw [← find?_present hnodup List.mem_cons_self, h]
        exact find?_present hnodup' List.mem_cons_self
      subst hvalue
      have hpresent : present rest = present rest' := by
        cases v? with
        | none => exact h
        | some v => exact (List.cons.inj h).2
      rw [ih hrest.symm (List.nodup_cons.mp hnodup).2 hpresent]

/-! ### Keys in order -/

/-- The keys are in increasing order. -/
def Sorted (d : Dict α) : Prop := d.Pairwise fun a b => a.1 < b.1

/-- An insertion adds one key. -/
theorem mem_of_mem_insert {value : α} {d : Dict α} {e : String × α}
    (h : e ∈ insert key value d) : e = (key, value) ∨ e ∈ d := by
  induction d with
  | nil => exact .inl (List.mem_singleton.mp h)
  | cons first rest ih =>
      obtain ⟨k, v⟩ := first
      unfold insert at h
      split at h
      · obtain h | h := List.mem_cons.mp h
        · exact .inl h
        · exact .inr (List.mem_cons_of_mem _ h)
      split at h
      · exact List.mem_cons.mp h
      · obtain h | h := List.mem_cons.mp h
        · exact .inr (h ▸ List.mem_cons_self)
        · exact (ih h).imp_right (List.mem_cons_of_mem _)

/-- An insertion keeps the keys in order. -/
theorem sorted_insert (value : α) {d : Dict α} (h : d.Sorted) : (insert key value d).Sorted := by
  induction d with
  | nil => exact List.pairwise_singleton _ _
  | cons first rest ih =>
      obtain ⟨k, v⟩ := first
      obtain ⟨hfirst, hrest⟩ := List.pairwise_cons.mp h
      unfold insert
      split
      next heq =>
        subst heq
        exact List.pairwise_cons.mpr ⟨hfirst, hrest⟩
      split
      next hlt =>
        refine List.pairwise_cons.mpr ⟨fun e he => ?_, h⟩
        obtain rfl | he := List.mem_cons.mp he
        · exact hlt
        · exact String.lt_trans hlt (hfirst e he)
      next hne hnot =>
        refine List.pairwise_cons.mpr ⟨fun e he => ?_, ih hrest⟩
        obtain rfl | he := mem_of_mem_insert he
        · exact String.not_le.mp fun hle => hne (String.le_antisymm (String.not_lt.mp hnot) hle)
        · exact hfirst e he

/-- After all other keys an insertion adds the entry at the end. -/
theorem insert_append {value : α} {d : Dict α} (h : ∀ e ∈ d, e.1 < key) :
    insert key value d = d ++ [(key, value)] := by
  induction d with
  | nil => rfl
  | cons first rest ih =>
      obtain ⟨k, v⟩ := first
      have hlt : k < key := h _ List.mem_cons_self
      have hrest := ih fun e he => h e (List.mem_cons_of_mem _ he)
      rw [insert, if_neg (String.ne_of_lt hlt), if_neg (String.lt_asymm hlt), hrest]
      rfl

end Dict

end NodeFeatureOperator
