import Mathlib.Logic.Relation
import NodeFeatureOperator.Proofs.Extension

/-!
# What counts as drift

The live values that cover a desired one are looked at from both sides. On the one side are the
changes that a desired value tolerates, at any depth and within items: fields that it does not have
are added, fields of it that are zero are dropped, and what is zero in it is made null. Each of them
keeps a cover, and a desired value covers itself, so that no number of them is taken for drift. On
the other side stands what such changes cannot touch: whatever a desired value sets to more than
zero is found in every value that covers it, at the end of the same path. A change below the end of
a path is carried up along it, one step after the other, and so it is enough to look at the value
that is changed.

## Main definitions

* `Json.changeAt?`: a value changed at the end of a path.
* `Json.changeFields?`: a change of the fields of an object.
* `Json.Tolerates`: the single changes that a desired value tolerates.

## Main results

* `Json.covers_changeAt`: a change keeps a cover if it does so at the end of the path.
* `Json.Tolerates.covers`: a change that is tolerated keeps a cover.
* `drift_exact`: what is tolerated is no drift, and without drift nothing is missed.
-/

namespace NodeFeatureOperator

/-! ### Fields that are dropped -/

namespace Dict

variable {α : Type} {key : String} {d : Dict α}

/-- The entries under other keys. -/
def without (key : String) (d : Dict α) : Dict α := d.filter fun e => e.1 ≠ key

/-- Nothing is found under a key that is dropped. -/
theorem find?_without_self : find? key (without key d) = none := by
  refine find?_of_notMem fun hmem => ?_
  obtain ⟨e, he, rfl⟩ := List.mem_map.mp hmem
  simpa using (List.mem_filter.mp he).2

/-- What is found under another key is found as before. -/
theorem find?_without_of_ne {other : String} (h : other ≠ key) :
    find? other (without key d) = find? other d := by
  induction d with
  | nil => rfl
  | cons e rest ih =>
      obtain ⟨k, v⟩ := e
      by_cases hk : k = key
      · rw [without, List.filter_cons_of_neg (by simpa using hk), find?_cons,
          if_neg (hk ▸ Ne.symm h)]
        exact ih
      · rw [without, List.filter_cons_of_pos (by simpa using hk), find?_cons, find?_cons]
        exact ite_congr rfl (fun _ => rfl) fun _ => ih

end Dict

namespace Json

/-! ### Changes at the end of a path -/

/-- A value with something else a step below, where something is. -/
def setChild? : Step → Json → Json → Option Json
  | .key key, child, .obj fields => some (.obj (Dict.insert key child fields))
  | .item position, child, .arr items => some (.arr (items.set position child))
  | _, _, _ => none

/-- A value changed at the end of a path, if the path leads somewhere and the change can be made
there. -/
def changeAt? (change : Json → Option Json) : List Step → Json → Option Json
  | [], j => change j
  | step :: path, j => do
    let child ← j.child? step
    let changed ← changeAt? change path child
    setChild? step changed j

/-- Changes the fields of an object. -/
def changeFields? (change : Dict Json → Dict Json) : Json → Option Json
  | .obj fields => some (.obj (change fields))
  | _ => none

/-- The changes of a live value that a desired one tolerates. -/
inductive Tolerates (want : Json) : Json → Json → Prop
  /-- A field is added where the desired value has none of this key. -/
  | added {path : List Step} {key : String} {value live changed : Json} :
      want.lookUp? (path ++ [.key key]) = none →
      live.changeAt? (changeFields? (Dict.insert key value)) path = some changed →
      Tolerates want live changed
  /-- A field is dropped that is zero in the desired value. -/
  | dropped {path : List Step} {key : String} {zero live changed : Json} :
      want.lookUp? (path ++ [.key key]) = some zero → zero.isZero = true →
      live.changeAt? (changeFields? (Dict.without key)) path = some changed →
      Tolerates want live changed
  /-- What is zero in the desired value is made null. -/
  | cleared {path : List Step} {zero live changed : Json} :
      want.lookUp? path = some zero → zero.isZero = true →
      live.changeAt? (fun _ => some .null) path = some changed → Tolerates want live changed

variable {want live changed : Json}

/-! ### Changes and covers -/

/-- What is a step below a well-formed value is well formed. -/
theorem wellFormed_child {step : Step} {w : Json} (h : want.WellFormed)
    (hw : want.child? step = some w) : w.WellFormed := by
  cases step with
  | key key =>
      cases want with
      | obj fields => exact wellFormedFields_iff.mp h.2 _ (Dict.mem_of_find? hw)
      | _ => cases hw
  | item i =>
      cases want with
      | arr items => exact wellFormedItems_iff.mp h _ (List.mem_of_getElem? hw)
      | _ => cases hw

/-- A live object covers a well-formed desired one exactly if its fields cover what is found
there. -/
theorem covers_obj_iff {lives fields : Dict Json} (h : (Json.obj fields).WellFormed) :
    (Json.obj lives).covers (.obj fields) = true ↔
      ∀ key w, Dict.find? key fields = some w → FieldCovers (Dict.find? key lives) w := by
  have hcovers : (Json.obj lives).covers (.obj fields) = coversFields lives fields := by
    simp only [covers]
  rw [hcovers, coversFields_iff]
  constructor
  · intro hall key w hw
    exact hall (key, w) (Dict.mem_of_find? hw)
  · rintro hall ⟨key, w⟩ hmem
    exact hall key w (Dict.find?_of_mem h.1 hmem)

/-- What an object covers is an object. -/
theorem eq_obj_of_covers {lives : Dict Json} (h : (Json.obj lives).covers want = true) :
    ∃ fields, want = .obj fields := by
  cases want with
  | obj fields => exact ⟨fields, rfl⟩
  | _ => simp [covers, sameScalar] at h

/-- What a list covers is a list. -/
theorem eq_arr_of_covers {lives : List Json} (h : (Json.arr lives).covers want = true) :
    ∃ items, want = .arr items := by
  cases want with
  | arr items => exact ⟨items, rfl⟩
  | _ => simp [covers, sameScalar] at h

/-- A change a step below keeps a cover if what comes there covers what is desired there. -/
theorem covers_setChild {step : Step} {l l' : Json} (hwant : want.WellFormed)
    (h : live.covers want = true) (hl : live.child? step = some l)
    (hchanged : setChild? step l' live = some changed)
    (hchild : ∀ w, want.child? step = some w → l'.covers w = true) :
    changed.covers want = true := by
  cases step with
  | key key =>
      cases live with
      | obj lives =>
          obtain rfl := Option.some.inj hchanged
          obtain ⟨fields, rfl⟩ := eq_obj_of_covers h
          rw [covers_obj_iff hwant] at h ⊢
          intro key' w hw
          by_cases hkey : key' = key
          · subst hkey
            rw [Dict.find?_insert_self]
            exact fieldCovers_some.mpr (hchild w hw)
          · rw [Dict.find?_insert_of_ne _ _ hkey]
            exact h key' w hw
      | _ => cases hl
  | item i =>
      cases live with
      | arr lives =>
          obtain rfl := Option.some.inj hchanged
          obtain ⟨items, rfl⟩ := eq_arr_of_covers h
          simp only [covers, coversItems_iff] at h ⊢
          obtain ⟨hlength, hall⟩ := h
          refine ⟨(List.length_set ..).trans hlength, fun j l'' w hl'' hw => ?_⟩
          by_cases hj : j = i
          · subst hj
            obtain ⟨hlt, -⟩ := List.getElem?_eq_some_iff.mp hl
            rw [List.getElem?_set_self hlt] at hl''
            obtain rfl := Option.some.inj hl''
            exact hchild w hw
          · rw [List.getElem?_set_ne (Ne.symm hj)] at hl''
            exact hall j l'' w hl'' hw
      | _ => cases hl

/-- A change keeps a cover if it does so at the end of the path, on what is desired there. If the
desired value has nothing there, then the change does not matter. -/
theorem covers_changeAt {change : Json → Option Json} {path : List Step}
    (hwant : want.WellFormed) (h : live.covers want = true)
    (hchanged : live.changeAt? change path = some changed)
    (hend : ∀ w l l', want.lookUp? path = some w → w.WellFormed → l.covers w = true →
      change l = some l' → l'.covers w = true) : changed.covers want = true := by
  induction path generalizing want live changed with
  | nil => exact hend want live changed rfl hwant h hchanged
  | cons step path ih =>
      obtain ⟨l, hl, hchanged⟩ := Option.bind_eq_some_iff.mp hchanged
      obtain ⟨l', hl', hchanged⟩ := Option.bind_eq_some_iff.mp hchanged
      refine covers_setChild hwant h hl hchanged fun w hw => ?_
      have hcovers : l.covers w = true := by
        have hfield := fieldCovers_child h hw
        rw [hl] at hfield
        exact fieldCovers_some.mp hfield
      refine ih (wellFormed_child hwant hw) hcovers hl' fun w' l l' hw' => hend w' l l' ?_
      rw [lookUp?, hw]
      exact hw'

/-- The end of a longer path is found from that of its beginning. -/
theorem lookUp?_append (path rest : List Step) (j : Json) :
    j.lookUp? (path ++ rest) = (j.lookUp? path).bind (lookUp? rest) := by
  induction path generalizing j with
  | nil => rfl
  | cons step path ih =>
      rw [List.cons_append, lookUp?, lookUp?, funext ih, Option.bind_assoc]

/-- The field of the value at the end of a path. -/
theorem field?_of_lookUp? {path : List Step} {w : Json} (hw : want.lookUp? path = some w)
    (key : String) : want.lookUp? (path ++ [.key key]) = w.field? key := by
  rw [lookUp?_append, hw]
  exact Option.bind_fun_some (w.field? key)

/-- A change of the fields at the end of a path keeps a cover if it does so for each field that is
desired there. -/
theorem covers_changeFields {change : Dict Json → Dict Json} {path : List Step}
    (hwant : want.WellFormed) (h : live.covers want = true)
    (hchanged : live.changeAt? (changeFields? change) path = some changed)
    (hfields : ∀ key w lives, want.lookUp? (path ++ [.key key]) = some w →
      FieldCovers (Dict.find? key lives) w → FieldCovers (Dict.find? key (change lives)) w) :
    changed.covers want = true := by
  refine covers_changeAt hwant h hchanged fun w l l' hw hwell hcovers hl' => ?_
  cases l with
  | obj lives =>
      obtain rfl := Option.some.inj hl'
      obtain ⟨fields, rfl⟩ := eq_obj_of_covers hcovers
      rw [covers_obj_iff hwell] at hcovers ⊢
      intro key w' hw'
      exact hfields key w' lives ((field?_of_lookUp? hw key).trans hw') (hcovers key w' hw')
  | _ => cases hl'

/-- A field that is added where the desired value has none of this key keeps a cover. -/
theorem covers_added {path : List Step} {key : String} {value : Json} (hwant : want.WellFormed)
    (h : live.covers want = true) (hnone : want.lookUp? (path ++ [.key key]) = none)
    (hchanged : live.changeAt? (changeFields? (Dict.insert key value)) path = some changed) :
    changed.covers want = true := by
  refine covers_changeFields hwant h hchanged fun key' w lives hw hcovers => ?_
  have hkey : key' ≠ key := by
    rintro rfl
    cases hnone.symm.trans hw
  rw [Dict.find?_insert_of_ne _ _ hkey]
  exact hcovers

/-- A field that is dropped keeps a cover if it is zero in the desired value. -/
theorem covers_dropped {path : List Step} {key : String} {zero : Json} (hwant : want.WellFormed)
    (h : live.covers want = true) (hzero : want.lookUp? (path ++ [.key key]) = some zero)
    (hiszero : zero.isZero = true)
    (hchanged : live.changeAt? (changeFields? (Dict.without key)) path = some changed) :
    changed.covers want = true := by
  refine covers_changeFields hwant h hchanged fun key' w lives hw hcovers => ?_
  by_cases hkey : key' = key
  · subst hkey
    obtain rfl := Option.some.inj (hzero.symm.trans hw)
    rw [Dict.find?_without_self]
    exact fieldCovers_none.mpr hiszero
  · rw [Dict.find?_without_of_ne hkey]
    exact hcovers

/-- A change that a desired value tolerates keeps a cover. -/
theorem Tolerates.covers (ht : want.Tolerates live changed) (hwant : want.WellFormed)
    (h : live.covers want = true) : changed.covers want = true := by
  cases ht with
  | added hnone hchanged => exact covers_added hwant h hnone hchanged
  | dropped hzero hiszero hchanged => exact covers_dropped hwant h hzero hiszero hchanged
  | @cleared path zero _ _ hzero hiszero hchanged =>
      refine covers_changeAt hwant h hchanged fun w l l' hw _ _ hclear => ?_
      obtain rfl := Option.some.inj (hzero.symm.trans hw)
      obtain rfl := Option.some.inj hclear
      rw [covers_null, hiszero]

/-- Any number of changes that a desired value tolerates end in a value that covers it. -/
theorem covers_of_tolerated (hwant : want.WellFormed)
    (h : Relation.ReflTransGen want.Tolerates want live) : live.covers want = true := by
  induction h with
  | refl => exact Extends.covers want (extends_self want hwant)
  | tail _ ht ih => exact ht.covers hwant ih

/-! ### What is not missed -/

/-- What a desired value sets to more than zero is covered at the end of the same path. -/
theorem exists_lookUp?_of_covers {path : List Step} {w : Json} (h : live.covers want = true)
    (hw : want.lookUp? path = some w) (hzero : w.isZero = false) :
    ∃ l, live.lookUp? path = some l ∧ l.covers w = true := by
  obtain hfound | ⟨-, hiszero⟩ := fieldCovers_lookUp? h hw
  · exact hfound
  · cases hzero.symm.trans hiszero

end Json

/-- **The drift check neither invents drift nor misses it.** Whatever comes of a desired value by
changes that it tolerates, however many, at any depth and within items, covers it: fields added that
it does not have there, fields dropped that are zero in it, and such made null. A live value that
covers it still does after a field is added that it does not have there. And in a live value that
covers it stands, at the end of every path, each scalar that it sets to more than zero, and for each
list with items a list of as many. -/
theorem drift_exact {want : Json} (hwant : want.WellFormed) :
    (∀ live : Json, Relation.ReflTransGen want.Tolerates want live → live.covers want = true) ∧
    (∀ (live changed value : Json) (path : List Json.Step) (key : String),
      live.covers want = true → want.lookUp? (path ++ [.key key]) = none →
      live.changeAt? (Json.changeFields? (Dict.insert key value)) path = some changed →
      changed.covers want = true) ∧
    ∀ live : Json, live.covers want = true →
      (∀ path w, want.lookUp? path = some w → w.IsScalar → w.isZero = false →
        live.lookUp? path = some w) ∧
      ∀ path items, want.lookUp? path = some (.arr items) → items ≠ [] →
        ∃ lives, live.lookUp? path = some (.arr lives) ∧ lives.length = items.length := by
  refine ⟨fun live => Json.covers_of_tolerated hwant,
    fun live changed value path key h => Json.covers_added hwant h, fun live h => ⟨?_, ?_⟩⟩
  · intro path w hw hscalar hzero
    obtain ⟨l, hl, hcovers⟩ := Json.exists_lookUp?_of_covers h hw hzero
    rw [hl, Json.eq_of_covers_scalar hcovers hscalar hzero]
  · intro path items hw hitems
    have hzero : (Json.arr items).isZero = false := List.isEmpty_eq_false_iff.mpr hitems
    obtain ⟨l, hl, hcovers⟩ := Json.exists_lookUp?_of_covers h hw hzero
    obtain ⟨lives, rfl, hlength, -⟩ := Json.exists_items_of_covers hcovers hitems
    exact ⟨lives, hl, hlength⟩

/-- A server adds a field to a container, leaves out a field that is false, and makes an empty list
null. This is no drift, and the image is still the one that is desired. -/
theorem drift_exact_defaulted :
    let want : Json := .obj [("spec", .obj [
      ("containers", .arr [.obj [("args", .arr []), ("image", .str "nfd")]]),
      ("paused", .bool false)])]
    let live : Json := .obj [("spec", .obj [
      ("containers", .arr [.obj [("args", .null), ("image", .str "nfd"),
        ("terminationMessagePath", .str "/dev/termination-log")]])])]
    want.WellFormed ∧ Relation.ReflTransGen want.Tolerates want live ∧
      live.covers want = true ∧
      live.lookUp? [.key "spec", .key "containers", .item 0, .key "image"] =
        some (.str "nfd") := by
  intro want live
  let container : List Json.Step := [.key "spec", .key "containers", .item 0]
  let withPath (fields : Dict Json) : Json := .obj [("spec", .obj (("containers", .arr [.obj [
    ("args", .arr []), ("image", .str "nfd"),
    ("terminationMessagePath", .str "/dev/termination-log")]]) :: fields))]
  have hadded : want.Tolerates want (withPath [("paused", .bool false)]) :=
    .added (show want.lookUp? (container ++ [.key "terminationMessagePath"]) = none from rfl) rfl
  have hdropped : want.Tolerates (withPath [("paused", .bool false)]) (withPath []) :=
    .dropped (show want.lookUp? ([.key "spec"] ++ [.key "paused"]) = some (.bool false) from rfl)
      rfl rfl
  have hcleared : want.Tolerates (withPath []) live :=
    .cleared (show want.lookUp? (container ++ [.key "args"]) = some (.arr []) from rfl) rfl rfl
  have htolerated : Relation.ReflTransGen want.Tolerates want live :=
    ((Relation.ReflTransGen.single hadded).tail hdropped).tail hcleared
  have hwant : want.WellFormed := by
    simp [want, Json.WellFormed, Json.WellFormedFields, Json.WellFormedItems]
  obtain ⟨hcovers, -, hkept⟩ := drift_exact hwant
  exact ⟨hwant, htolerated, hcovers live htolerated,
    (hkept live (hcovers live htolerated)).1 _ _ rfl trivial rfl⟩

/-- An item may not be missing, even if it is zero. -/
example : (Json.arr []).covers (.arr [.null]) = false := by decide

end NodeFeatureOperator
