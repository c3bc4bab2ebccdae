import NodeFeatureOperator.Proofs.Records
import NodeFeatureOperator.Proofs.Settled

/-!
# What a settled object is known to hold

A settled component can be built again, also for another desired state: its object is of the
component's kind, and no other owner controls it. Where the object was recognised by its digest this
is known only because it carries the desired object, whose single owner reference is then its own.
That one value covers another is followed down both of them at once, from a record to its fields and
from a list to its items: at the end of each path the one covers what the other sets there, unless
that is zero and may be missing.

## Main definitions

* `Json.IsScalar`: a value is neither a list nor an object.
* `Json.FieldCovers`: a live field covers a desired value.
* `Json.at?`, `Json.lookUp?`: the value at the end of a path, of keys only or of positions too.

## Main results

* `Json.eq_of_covers_scalar`: a scalar that is not zero is covered by itself only.
* `Json.covers_record_iff`: a live record covers a desired one field by field.
* `Json.coversItems_iff`: a live list covers a desired one item by item.
* `Json.fieldCovers_lookUp?`: a live value covers what a desired one sets at the end of a path.
* `ManagedObject.exists_reference_of_carries`: an object that carries one with one owner names that
  owner alone.
* `Component.Settled.exists_built`: what is settled can be built onto.
-/

namespace NodeFeatureOperator

/-! ### Scalars -/

/-- Numbers that count as the same are equal, unless they are zero. -/
theorem Number.eq_of_same {a b : Number} (h : a.same b = true) (hb : b.isZero = false) : a = b := by
  cases a with
  | int a =>
      cases b with
      | int b => exact congrArg Number.int (beq_iff_eq.mp h)
      | double b => cases h
  | double a =>
      cases b with
      | int b => cases h
      | double b =>
          obtain heq | hzero := Bool.or_eq_true_iff.mp h
          · exact congrArg Number.double (beq_iff_eq.mp heq)
          · rw [Bool.and_eq_true] at hzero
            cases hzero.2.symm.trans hb

namespace Json

/-- A value that is neither a list nor an object. -/
def IsScalar : Json → Prop
  | .arr _ => False
  | .obj _ => False
  | _ => True

/-- Scalars that count as the same are equal, unless they are zero. -/
theorem eq_of_sameScalar {l w : Json} (h : sameScalar l w = true) (hzero : w.isZero = false) :
    l = w := by
  cases w with
  | null => cases hzero
  | bool b =>
      cases l with
      | bool a => exact congrArg Json.bool (beq_iff_eq.mp h)
      | _ => cases h
  | num b =>
      cases l with
      | num a => exact congrArg Json.num (Number.eq_of_same h hzero)
      | _ => cases h
  | str b =>
      cases l with
      | str a => exact congrArg Json.str (beq_iff_eq.mp h)
      | _ => cases h
  | arr items => cases l <;> cases h
  | obj fields => cases l <;> cases h

/-- What covers a scalar that is not zero is this scalar. -/
theorem eq_of_covers_scalar {l w : Json} (h : l.covers w = true) (hscalar : w.IsScalar)
    (hzero : w.isZero = false) : l = w := by
  refine eq_of_sameScalar ?_ hzero
  cases w with
  | arr items => exact hscalar.elim
  | obj fields => exact hscalar.elim
  | _ => cases l <;> simp_all [covers, sameScalar]

/-! ### Records -/

/-- A null covers what is zero, as a field that is missing does. -/
@[simp] theorem covers_null (w : Json) : Json.null.covers w = w.isZero := by
  cases w <;> simp [covers, isZero]

/-- A live field, which may be missing, covers a desired value: it is there and its value does, or
it is missing and the desired value is zero. -/
def FieldCovers (l? : Option Json) (w : Json) : Prop :=
  (∃ l, l? = some l ∧ l.covers w = true) ∨ (l? = none ∧ w.isZero = true)

/-- A field that is there covers what its value covers. -/
@[simp] theorem fieldCovers_some {l w : Json} : FieldCovers (some l) w ↔ l.covers w = true := by
  simp [FieldCovers]

/-- A field that is missing covers what is zero. -/
@[simp] theorem fieldCovers_none {w : Json} : FieldCovers none w ↔ w.isZero = true := by
  simp [FieldCovers]

/-- Live fields cover the desired ones exactly if each of these is covered by the field of its
key. -/
theorem coversFields_iff {live : Dict Json} {want : List (String × Json)} :
    coversFields live want = true ↔ ∀ e ∈ want, FieldCovers (Dict.find? e.1 live) e.2 := by
  induction want with
  | nil => simp [coversFields]
  | cons e rest ih =>
      obtain ⟨key, w⟩ := e
      rw [coversFields, Bool.and_eq_true, ih, List.forall_mem_cons]
      refine and_congr_left fun _ => ?_
      cases Dict.find? key live with
      | none => rw [fieldCovers_none]
      | some l => rw [fieldCovers_some]

/-- A live record covers a desired one exactly if it covers each field that is set there. -/
theorem covers_record_iff {live want : List (String × Option Json)} :
    (record live).covers (record want) = true ↔
      ∀ e ∈ want, ∀ w, e.2 = some w → FieldCovers (Dict.find? e.1 (Dict.present live)) w := by
  have hfields : (record live).covers (record want) =
      coversFields (Dict.present live) (Dict.present want) := by
    simp only [record, covers]
  rw [hfields, coversFields_iff]
  constructor
  · intro h e he w hw
    exact h (e.1, w) (Dict.mem_present_iff.mpr (hw ▸ he))
  · intro h e he
    exact h _ (Dict.mem_present_iff.mp he) _ rfl

/-- Fields that are found under their keys cover desired ones of the same keys exactly if they do so
one by one. -/
theorem forall₂_fieldCovers_iff {fields : Dict Json} {live want : List (String × Option Json)}
    (hlive : ∀ l ∈ live, Dict.find? l.1 fields = l.2)
    (hkeys : live.map Prod.fst = want.map Prod.fst) :
    (∀ e ∈ want, ∀ w, e.2 = some w → FieldCovers (Dict.find? e.1 fields) w) ↔
      List.Forall₂ (fun l e => ∀ w, e.2 = some w → FieldCovers l.2 w) live want := by
  induction live generalizing want with
  | nil =>
      obtain rfl : want = [] := List.map_eq_nil_iff.mp hkeys.symm
      simp
  | cons l live ih =>
      cases want with
      | nil => cases hkeys
      | cons e want =>
          obtain ⟨hkey, hkeys⟩ := List.cons.inj hkeys
          have hrest := ih (fun l' hl' => hlive l' (List.mem_cons_of_mem l hl')) hkeys
          rw [List.forall_mem_cons, List.forall₂_cons, hrest, ← hkey, hlive l List.mem_cons_self]

/-- Records of the same keys cover each other field by field. -/
theorem covers_record_iff_forall₂ {live want : List (String × Option Json)}
    (hlive : (live.map Prod.fst).Nodup) (hkeys : live.map Prod.fst = want.map Prod.fst) :
    (record live).covers (record want) = true ↔
      List.Forall₂ (fun l e => ∀ w, e.2 = some w → FieldCovers l.2 w) live want := by
  rw [covers_record_iff]
  exact forall₂_fieldCovers_iff (fun l hl => Dict.find?_present hlive hl) hkeys

/-- A live record that covers a desired one covers each field that is set there; one that is missing
is zero. -/
theorem covers_field {live want : List (String × Option Json)} (key : String)
    (l? : Option Json) (w : Json) (h : (record live).covers (record want) = true)
    (hlive : (live.map Prod.fst).Nodup) (hl : (key, l?) ∈ live) (hw : (key, some w) ∈ want) :
    (∃ l, l? = some l ∧ l.covers w = true) ∨ (l? = none ∧ w.isZero = true) := by
  rw [← Dict.find?_present hlive hl]
  exact covers_record_iff.mp h _ hw w rfl

/-! ### Lists -/

/-- Live items cover the desired ones exactly if they are as many, and each covers the one at its
position. -/
theorem coversItems_iff {live want : List Json} :
    coversItems live want = true ↔ live.length = want.length ∧
      ∀ (i : Nat) (l w : Json), live[i]? = some l → want[i]? = some w → l.covers w = true := by
  induction want generalizing live with
  | nil => simp [coversItems]
  | cons w want ih =>
      cases live with
      | nil => simp [coversItems]
      | cons l live =>
          rw [coversItems, Bool.and_eq_true, ih, List.length_cons, List.length_cons,
            Nat.add_right_cancel_iff]
          constructor
          · rintro ⟨hfirst, hlength, hrest⟩
            refine ⟨hlength, fun i l' w' hl' hw' => ?_⟩
            cases i with
            | zero =>
                obtain rfl := Option.some.inj hl'
                obtain rfl := Option.some.inj hw'
                exact hfirst
            | succ i => exact hrest i l' w' hl' hw'
          · rintro ⟨hlength, h⟩
            exact ⟨h 0 l w rfl rfl, hlength, fun i => h (i + 1)⟩

/-- A live value that covers a list with items is a list of as many. -/
theorem exists_items_of_covers {live : Json} {items : List Json}
    (h : live.covers (.arr items) = true) (hitems : items ≠ []) :
    ∃ lives, live = .arr lives ∧ lives.length = items.length ∧
      ∀ (i : Nat) (l w : Json), lives[i]? = some l → items[i]? = some w → l.covers w = true := by
  cases live with
  | arr lives =>
      simp only [covers] at h
      exact ⟨lives, rfl, coversItems_iff.mp h⟩
  | null => exact absurd (List.isEmpty_iff.mp (by simpa only [covers] using h)) hitems
  | _ => simp [covers] at h

/-- A list of one item is covered by lists of one item that covers it. -/
theorem exists_of_covers_singleton {items : List Json} {w : Json}
    (h : (Json.arr items).covers (.arr [w]) = true) : ∃ l, items = [l] ∧ l.covers w = true := by
  obtain ⟨lives, hlives, hlength, hcovers⟩ := exists_items_of_covers h (List.cons_ne_nil w [])
  obtain ⟨l, rfl⟩ := List.length_eq_one_iff.mp hlength
  exact ⟨l, Json.arr.inj hlives, hcovers 0 l w rfl rfl⟩

/-! ### Paths -/

/-- The value at the end of a path of keys. -/
def at? : List String → Json → Option Json
  | [], j => some j
  | key :: path, j => (j.field? key).bind (at? path)

/-- A step down into a value: to a field, or to an item. -/
inductive Step where
  | key (key : String)
  | item (position : Nat)
deriving DecidableEq, Repr

/-- The value a step below. -/
def child? : Step → Json → Option Json
  | .key key, j => j.field? key
  | .item position, .arr items => items[position]?
  | .item _, _ => none

/-- The value at the end of a path of steps. -/
def lookUp? : List Step → Json → Option Json
  | [], j => some j
  | step :: path, j => (j.child? step).bind (lookUp? path)

/-- A path of keys is a path of steps. -/
theorem at?_eq_lookUp? (path : List String) (j : Json) :
    j.at? path = j.lookUp? (path.map .key) := by
  induction path generalizing j with
  | nil => rfl
  | cons key path ih =>
      rw [at?, funext ih]
      rfl

/-- A live value that covers an object covers the fields of it. -/
theorem fieldCovers_of_covers {live want w : Json} {key : String} (h : live.covers want = true)
    (hw : want.field? key = some w) : FieldCovers (live.field? key) w := by
  cases want with
  | obj fields =>
      have hmem : (key, w) ∈ fields := Dict.mem_of_find? hw
      cases live with
      | obj lives => exact coversFields_iff.mp (by simpa only [covers] using h) _ hmem
      | null =>
          have hempty : fields = [] := by simpa [covers] using h
          rw [hempty] at hmem
          cases hmem
      | _ => simp [covers] at h
  | _ => cases hw

/-- A live value that covers a desired one covers what that sets a step below. -/
theorem fieldCovers_child {step : Step} {live want w : Json} (h : live.covers want = true)
    (hw : want.child? step = some w) : FieldCovers (live.child? step) w := by
  cases step with
  | key key => exact fieldCovers_of_covers h hw
  | item i =>
      cases want with
      | arr items =>
          obtain ⟨hi, -⟩ := List.getElem?_eq_some_iff.mp hw
          obtain ⟨lives, rfl, hlength, hcovers⟩ :=
            exists_items_of_covers h (List.ne_nil_of_length_pos (Nat.zero_lt_of_lt hi))
          obtain ⟨l, hl⟩ : ∃ l, lives[i]? = some l :=
            ⟨_, List.getElem?_eq_getElem (hlength ▸ hi)⟩
          exact .inl ⟨l, hl, hcovers i l w hl hw⟩
      | _ => cases hw

/-- Nothing is below what is zero. -/
theorem child?_of_isZero {j : Json} (hj : j.isZero = true) (step : Step) :
    j.child? step = none := by
  cases j with
  | obj fields =>
      obtain rfl : fields = [] := List.isEmpty_iff.mp hj
      cases step <;> rfl
  | arr items =>
      obtain rfl : items = [] := List.isEmpty_iff.mp hj
      cases step <;> rfl
  | _ => cases step <;> rfl

/-- What is zero has nothing in it but itself. -/
theorem isZero_of_lookUp? {path : List Step} {j w : Json} (h : j.lookUp? path = some w)
    (hj : j.isZero = true) : w.isZero = true := by
  cases path with
  | nil =>
      obtain rfl := Option.some.inj h
      exact hj
  | cons step path =>
      rw [lookUp?, child?_of_isZero hj] at h
      cases h

/-- A live value that covers a desired one covers what that sets at the end of a path. -/
theorem fieldCovers_lookUp? {path : List Step} {live want w : Json}
    (h : live.covers want = true) (hw : want.lookUp? path = some w) :
    FieldCovers (live.lookUp? path) w := by
  induction path generalizing live want with
  | nil =>
      obtain rfl := Option.some.inj hw
      exact fieldCovers_some.mpr h
  | cons step path ih =>
      obtain ⟨child, hchild, hw⟩ := Option.bind_eq_some_iff.mp hw
      obtain ⟨l, hl, hcovers⟩ | ⟨hnone, hzero⟩ := fieldCovers_child h hchild
      · rw [lookUp?, hl]
        exact ih hcovers hw
      · rw [lookUp?, hnone]
        exact fieldCovers_none.mpr (isZero_of_lookUp? hw hzero)

/-- So it does at the end of a path of keys. -/
theorem fieldCovers_at {path : List String} {live want w : Json} (h : live.covers want = true)
    (hw : want.at? path = some w) : FieldCovers (live.at? path) w := by
  rw [at?_eq_lookUp?] at hw ⊢
  exact fieldCovers_lookUp? h hw

end Json

/-! ### What carries an object with an owner -/

/-- A reference that covers another one has its uid. -/
theorem OwnerReference.uid_of_covers {r ref : OwnerReference}
    (h : r.toJson.covers ref.toJson = true) : r.uid = ref.uid := by
  obtain ⟨l, hl, hcovers⟩ | ⟨hnone, -⟩ := Json.covers_field "uid"
    (some (.str r.uid)) (.str ref.uid) h (by simp) (by simp) (by simp)
  · obtain rfl := Option.some.inj hl
    simpa [Json.covers, Json.sameScalar] using hcovers
  · cases hnone

/-- Metadata that cover those of an object with one owner name that owner alone. -/
theorem Metadata.exists_reference_of_covers {m m' : Metadata} {ref : OwnerReference}
    (hm' : m'.ownerReferences = some [ref]) (h : m.toJson.covers m'.toJson = true) :
    ∃ r, m.ownerReferences = some [r] ∧ r.uid = ref.uid := by
  obtain ⟨l, hl, hcovers⟩ | ⟨-, hzero⟩ := Json.covers_field "ownerReferences"
    (m.ownerReferences.map fun l => .arr (l.map OwnerReference.toJson)) (.arr [ref.toJson])
    h (by simp) (by simp) (by simp [hm'])
  · obtain ⟨refs, hrefs, rfl⟩ := Option.map_eq_some_iff.mp hl
    obtain ⟨l, hitems, hcovers⟩ := Json.exists_of_covers_singleton hcovers
    obtain ⟨r, rfl, rfl⟩ := List.map_eq_singleton_iff.mp hitems
    exact ⟨r, hrefs, OwnerReference.uid_of_covers hcovers⟩
  · cases hzero

/-- An object is written as a record of different keys that has its metadata. -/
theorem ManagedObject.exists_fields (o : ManagedObject) :
    ∃ fields, o.toJson = .record fields ∧ (fields.map Prod.fst).Nodup ∧
      ("metadata", some o.metadata.toJson) ∈ fields := by
  obtain ⟨m, content⟩ := o
  cases content <;> exact ⟨_, rfl, by simp [workloadFields], by simp⟩

/-- An object that carries one with one owner names that owner alone. -/
theorem ManagedObject.exists_reference_of_carries {live desired : ManagedObject}
    {ref : OwnerReference} (hdesired : desired.metadata.ownerReferences = some [ref])
    (h : live.carries desired = true) :
    ∃ r, live.metadata.ownerReferences = some [r] ∧ r.uid = ref.uid := by
  obtain ⟨lives, hlive, hnodup, hl⟩ := live.exists_fields
  obtain ⟨wants, hwant, -, hw⟩ := desired.exists_fields
  rw [carries, hlive, hwant] at h
  obtain ⟨l, hl, hcovers⟩ | ⟨hnone, -⟩ := Json.covers_field _ _ _ h hnodup hl hw
  · obtain rfl := Option.some.inj hl
    exact Metadata.exists_reference_of_covers hdesired hcovers
  · cases hnone

/-- So it has no other controller. -/
theorem ManagedObject.foreignController?_of_carries {live desired : ManagedObject}
    {ref : OwnerReference} (hdesired : desired.metadata.ownerReferences = some [ref])
    (h : live.carries desired = true) : live.metadata.foreignController? ref.uid = none := by
  obtain ⟨r, hrefs, huid⟩ := exists_reference_of_carries hdesired h
  simp [Metadata.foreignController?, hrefs, huid]

/-! ### Settled components -/

namespace Component

variable {c : Component} {n n' : NodeFeatureDiscovery} {ns : String} {s : Store}

/-- A content of the component's kind can be filled. -/
theorem exists_fill {x : Content} (h : x.kind = c.kind) (spec : Spec) :
    ∃ y, c.fill spec x = some y := by
  cases c <;> cases x <;> first | exact ⟨_, rfl⟩ | cases h

/-- A settled component bears the digest of the desired object. -/
theorem Settled.recordedHash (h : c.Settled n ns s) :
    ∃ desired live, c.desired n ns = .ok desired ∧ s.object? (c.place ns) = some live ∧
      live.recordedHash = some desired.contentHash := by
  obtain ⟨desired, live, hdesired, hlive, ⟨hhash, -⟩ | ⟨built, -, rfl⟩⟩ := h
  · exact ⟨desired, live, hdesired, hlive, hhash⟩
  · exact ⟨desired, _, hdesired, hlive, ManagedObject.recordedHash_recordHash _ _⟩

/-- A component that is settled for a resource can be built onto for any desired state of it. -/
theorem Settled.exists_built (h : c.Settled n ns s) (hs : s.Coherent)
    (href : n'.ownerReference? = n.ownerReference?) :
    ∃ live built, s.object? (c.place ns) = some live ∧ c.built n' live = .ok built := by
  obtain ⟨desired, live, hdesired, hlive, hexit⟩ := h
  obtain ⟨content, ref, hfill, hn, -, rfl⟩ := built_eq_ok_iff.mp hdesired
  have hforeign : live.metadata.foreignController? ref.uid = none := by
    obtain ⟨-, hcarries⟩ | ⟨built, hbuilt, -⟩ := hexit
    · exact ManagedObject.foreignController?_of_carries rfl hcarries
    · obtain ⟨_, ref', -, hn', hforeign, -⟩ := built_eq_ok_iff.mp hbuilt
      obtain rfl := Option.some.inj (hn.symm.trans hn')
      exact hforeign
  have hkind : live.content.kind = c.kind := (ObjectKey.mk.inj (hs _ _ hlive)).1
  obtain ⟨content', hfill'⟩ := exists_fill hkind n'.spec
  exact ⟨live, _, hlive, built_eq_ok_iff.mpr ⟨content', ref, hfill', href.trans hn, hforeign, rfl⟩⟩

end Component

end NodeFeatureOperator
