import NodeFeatureOperator.Json.Written
import NodeFeatureOperator.Proofs.Records

/-!
# Values with keys in order

Whatever a document's fields are in order and number, its value is one whose objects have their keys
in order, each of them once. Such a value is written plainly, and the plain document has no other
value.

## Main definitions

* `Json.Ordered`: the keys of every object are in increasing order.

## Main results

* `Json.ordered_of_value`: the value of a document is ordered.
* `Json.value_written`: an ordered value is the value of the document that is written for it.
-/

namespace NodeFeatureOperator

namespace Json

open Written (value valueOfItems valueOfFields)

mutual
/-- The keys of every object in the value are in increasing order. -/
def Ordered : Json → Prop
  | .arr items => OrderedItems items
  | .obj fields => Dict.Sorted fields ∧ OrderedFields fields
  | _ => True
termination_by structural j => j
/-- Every item is ordered. -/
def OrderedItems : List Json → Prop
  | [] => True
  | j :: rest => Ordered j ∧ OrderedItems rest
termination_by structural l => l
/-- Every field's value is ordered. -/
def OrderedFields : List (String × Json) → Prop
  | [] => True
  | (_, j) :: rest => Ordered j ∧ OrderedFields rest
termination_by structural l => l
end

/-- Fields are ordered if the value of each is. -/
theorem orderedFields_iff {fields : List (String × Json)} :
    OrderedFields fields ↔ ∀ e ∈ fields, e.2.Ordered := by
  induction fields with
  | nil => simp [OrderedFields]
  | cons e rest ih => simp [OrderedFields, ih]

/-- Fields stay ordered when one with an ordered value is put in. -/
theorem OrderedFields.insert {fields : Dict Json} (h : OrderedFields fields) {j : Json}
    (hj : j.Ordered) (key : String) : OrderedFields (Dict.insert key j fields) := by
  refine orderedFields_iff.mpr fun e he => ?_
  obtain rfl | he := Dict.mem_of_mem_insert he
  · exact hj
  · exact orderedFields_iff.mp h e he

/-! ### What is read is ordered -/

mutual
/-- The value of a document is ordered. -/
theorem ordered_of_value : (w : Written) → {j : Json} → value w = some j → j.Ordered
  | .arr items, j, h => by
      obtain ⟨js, hjs, rfl⟩ := Option.map_eq_some_iff.mp h
      exact ordered_of_valueOfItems items hjs
  | .obj fields, j, h => by
      obtain ⟨d, hd, rfl⟩ := Option.map_eq_some_iff.mp h
      exact ordered_of_valueOfFields fields .nil trivial hd
  | .unreadable, _, h => nomatch h
  | .null, _, h | .bool _, _, h | .num _, _, h | .str _, _, h => by
      obtain rfl := Option.some.inj h
      trivial
/-- So are the values of its items. -/
theorem ordered_of_valueOfItems : (items : List Written) → {js : List Json} →
    valueOfItems items = some js → OrderedItems js
  | [], js, h => by
      obtain rfl := Option.some.inj h
      trivial
  | w :: rest, js, h => by
      unfold valueOfItems at h
      split at h
      next j tail hj htail =>
        obtain rfl := Option.some.inj h
        exact ⟨ordered_of_value w hj, ordered_of_valueOfItems rest htail⟩
      · cases h
/-- So are its fields, added to fields that are. -/
theorem ordered_of_valueOfFields : (fields : List (String × Written)) → {read d : Dict Json} →
    read.Sorted → OrderedFields read → valueOfFields read fields = some d →
    d.Sorted ∧ OrderedFields d
  | [], read, d, hsorted, hread, h => by
      obtain rfl := Option.some.inj h
      exact ⟨hsorted, hread⟩
  | (key, w) :: rest, read, d, hsorted, hread, h => by
      unfold valueOfFields at h
      split at h
      next j hj =>
        exact ordered_of_valueOfFields rest (Dict.sorted_insert j hsorted)
          (hread.insert (ordered_of_value w hj) key) h
      · cases h
end

/-! ### What is ordered is read -/

mutual
/-- An ordered value is the value of the document that is written for it. -/
theorem value_written : (j : Json) → j.Ordered → j.written.value = some j
  | .arr items, h => by rw [written, value, valueOfItems_written items h, Option.map_some]
  | .obj fields, h => by
      have hfields : valueOfFields [] (writtenFields fields) = some fields :=
        valueOfFields_written fields h.1 h.2
      rw [written, value, hfields, Option.map_some]
  | .null, _ | .bool _, _ | .num _, _ | .str _, _ => rfl
/-- So are its items. -/
theorem valueOfItems_written : (items : List Json) → OrderedItems items →
    valueOfItems (writtenItems items) = some items
  | [], _ => rfl
  | j :: rest, h => by
      rw [writtenItems, valueOfItems, value_written j h.1, valueOfItems_written rest h.2]
/-- So are its fields, after those that were read already. -/
theorem valueOfFields_written : (fields : List (String × Json)) → {read : Dict Json} →
    (hsorted : Dict.Sorted (read ++ fields)) → OrderedFields fields →
    valueOfFields read (writtenFields fields) = some (read ++ fields)
  | [], read, _, _ => by rw [writtenFields, valueOfFields, List.append_nil]
  | (key, j) :: rest, read, hsorted, h => by
      have hbefore : ∀ e ∈ read, e.1 < key := fun e he =>
        (List.pairwise_append.mp hsorted).2.2 e he _ List.mem_cons_self
      have hnext : read ++ (key, j) :: rest = read ++ [(key, j)] ++ rest := List.append_cons ..
      rw [hnext] at hsorted
      have hrest := valueOfFields_written rest hsorted h.2
      rw [← Dict.insert_append hbefore] at hrest
      rw [writtenFields, valueOfFields, value_written j h.1, hnext, ← Dict.insert_append hbefore]
      exact hrest
end

end Json

end NodeFeatureOperator
