import NodeFeatureOperator.Proofs.Coverage

/-!
# Values with fields added

A server adds fields to the objects that it stores, at any depth, and leaves alone what it was
given. The values that come of that extend the given one. They cover whatever the given one extends,
since nothing of it is missing or changed.

## Main definitions

* `Json.Extends`: a value with fields added to its objects.

## Main results

* `Json.extends_self`: a well-formed value extends itself.
* `Json.Extends.trans`: what extends an extension extends the value.
* `Json.Extends.covers`: what extends a value covers it.
-/

namespace NodeFeatureOperator

namespace Json

/-! ### Extensions -/

mutual
/-- A value is another one with fields added to its objects, at any depth. -/
def Extends (live : Json) : Json → Prop
  | .obj fields => ∃ lives, live = .obj lives ∧ ExtendsFields lives fields
  | .arr items => ∃ lives, live = .arr lives ∧ ExtendsItems lives items
  | j => live = j
termination_by structural j => j
/-- Among some fields are the given ones, with fields added to their values. -/
def ExtendsFields (lives : Dict Json) : List (String × Json) → Prop
  | [] => True
  | (key, j) :: rest =>
    (∃ l, Dict.find? key lives = some l ∧ Extends l j) ∧ ExtendsFields lives rest
termination_by structural fields => fields
/-- Some items are the given ones, with fields added to them. -/
def ExtendsItems (lives : List Json) : List Json → Prop
  | [] => lives = []
  | j :: rest => ∃ l others, lives = l :: others ∧ Extends l j ∧ ExtendsItems others rest
termination_by structural items => items
end

/-- Some fields have the given ones among them if each is found. -/
theorem extendsFields_iff {lives : Dict Json} {fields : List (String × Json)} :
    ExtendsFields lives fields ↔
      ∀ key j, (key, j) ∈ fields → ∃ l, Dict.find? key lives = some l ∧ l.Extends j := by
  induction fields with
  | nil => simp [ExtendsFields]
  | cons e rest ih =>
      obtain ⟨k, v⟩ := e
      rw [ExtendsFields, ih]
      constructor
      · rintro ⟨hfirst, hrest⟩ key j hmem
        obtain heq | hmem := List.mem_cons.mp hmem
        · obtain ⟨rfl, rfl⟩ := Prod.mk.inj heq
          exact hfirst
        · exact hrest key j hmem
      · intro h
        exact ⟨h k v List.mem_cons_self, fun key j hmem => h key j (List.mem_cons_of_mem _ hmem)⟩

/-- Items with fields added are as many. -/
theorem length_of_extendsItems {lives items : List Json} (h : ExtendsItems lives items) :
    lives.length = items.length := by
  induction items generalizing lives with
  | nil =>
      obtain rfl := h
      rfl
  | cons j rest ih =>
      obtain ⟨l, others, rfl, -, hrest⟩ := h
      rw [List.length_cons, List.length_cons, ih hrest]

mutual
/-- A value whose objects have different keys extends itself. -/
theorem extends_self : (j : Json) → j.WellFormed → j.Extends j
  | .obj fields, h => ⟨fields, rfl, extendsFields_iff.mpr fun _ _ hmem =>
      ⟨_, Dict.find?_of_mem h.1 hmem, extendsFields_self fields h.2 _ _ hmem⟩⟩
  | .arr items, h => ⟨items, rfl, extendsItems_self items h⟩
  | .null, _ | .bool _, _ | .num _, _ | .str _, _ => rfl
/-- So do the values of its fields. -/
theorem extendsFields_self : (fields : List (String × Json)) → WellFormedFields fields →
    ∀ key j, (key, j) ∈ fields → j.Extends j
  | (_, v) :: rest, h, key, j, hmem => by
      obtain heq | hmem := List.mem_cons.mp hmem
      · obtain ⟨rfl, rfl⟩ := Prod.mk.inj heq
        exact extends_self _ h.1
      · exact extendsFields_self rest h.2 key j hmem
/-- So do its items. -/
theorem extendsItems_self : (items : List Json) → WellFormedItems items →
    ExtendsItems items items
  | [], _ => rfl
  | j :: rest, h => ⟨j, rest, rfl, extends_self j h.1, extendsItems_self rest h.2⟩
end

mutual
/-- What extends an extension of a value extends the value. -/
theorem Extends.trans {a b : Json} : (j : Json) → a.Extends b → b.Extends j → a.Extends j
  | .obj fields, hab, hbj => by
      obtain ⟨bs, rfl, hbj⟩ := hbj
      obtain ⟨as, rfl, hab⟩ := hab
      exact ⟨as, rfl, ExtendsFields.trans fields hab hbj⟩
  | .arr items, hab, hbj => by
      obtain ⟨bs, rfl, hbj⟩ := hbj
      obtain ⟨as, rfl, hab⟩ := hab
      exact ⟨as, rfl, ExtendsItems.trans items hab hbj⟩
  | .null, hab, hbj | .bool _, hab, hbj | .num _, hab, hbj | .str _, hab, hbj => by
      obtain rfl := hbj
      exact hab
/-- So do fields. -/
theorem ExtendsFields.trans {as bs : List (String × Json)} : (fields : List (String × Json)) →
    ExtendsFields as bs → ExtendsFields bs fields → ExtendsFields as fields
  | [], _, _ => trivial
  | (key, j) :: rest, hab, hbj => by
      obtain ⟨⟨b, hb, hbj⟩, hrest⟩ := hbj
      obtain ⟨a, ha, hab'⟩ := extendsFields_iff.mp hab _ _ (Dict.mem_of_find? hb)
      exact ⟨⟨a, ha, Extends.trans j hab' hbj⟩, ExtendsFields.trans rest hab hrest⟩
/-- So do items. -/
theorem ExtendsItems.trans {as bs : List Json} : (items : List Json) →
    ExtendsItems as bs → ExtendsItems bs items → ExtendsItems as items
  | [], hab, hbj => by
      obtain rfl := hbj
      exact hab
  | j :: rest, hab, hbj => by
      obtain ⟨b, bs, rfl, hbj, hrest⟩ := hbj
      obtain ⟨a, as, rfl, hab, hothers⟩ := hab
      exact ⟨a, as, rfl, Extends.trans j hab hbj, ExtendsItems.trans rest hothers hrest⟩
end

mutual
/-- What extends a value covers it. -/
theorem Extends.covers {live : Json} : (j : Json) → live.Extends j → live.covers j = true
  | .obj fields, h => by
      obtain ⟨lives, rfl, h⟩ := h
      exact ExtendsFields.covers fields h
  | .arr items, h => by
      obtain ⟨lives, rfl, h⟩ := h
      exact ExtendsItems.covers items h
  | .null, h => by
      obtain rfl := h
      rfl
  | .bool b, h => by
      obtain rfl := h
      simp [Json.covers, sameScalar]
  | .num n, h => by
      obtain rfl := h
      cases n <;> simp [Json.covers, sameScalar, Number.same, Double.same]
  | .str s, h => by
      obtain rfl := h
      simp [Json.covers, sameScalar]
/-- So do fields. -/
theorem ExtendsFields.covers {lives : List (String × Json)} : (fields : List (String × Json)) →
    ExtendsFields lives fields → coversFields lives fields = true
  | [], _ => rfl
  | (key, j) :: rest, h => by
      obtain ⟨⟨l, hl, hj⟩, hrest⟩ := h
      rw [coversFields, hl, ExtendsFields.covers rest hrest, Bool.and_true]
      exact Extends.covers j hj
/-- So do items. -/
theorem ExtendsItems.covers {lives : List Json} : (items : List Json) →
    ExtendsItems lives items → coversItems lives items = true
  | [], h => by
      obtain rfl := h
      rfl
  | j :: rest, h => by
      obtain ⟨l, others, rfl, hj, hrest⟩ := h
      rw [coversItems, ExtendsItems.covers rest hrest, Bool.and_true]
      exact Extends.covers j hj
end

/-! ### Records -/

section Records

variable {live want : List (String × Option Json)}

/-- A record extends another one that has no fields but those of the first, with fields added to
their values. -/
theorem extends_record (hlive : (live.map Prod.fst).Nodup)
    (h : ∀ key w, (key, some w) ∈ want → ∃ l, (key, some l) ∈ live ∧ l.Extends w) :
    (record live).Extends (record want) := by
  refine ⟨_, rfl, extendsFields_iff.mpr fun key w hw => ?_⟩
  obtain ⟨l, hl, hextends⟩ := h _ _ (Dict.mem_present_iff.mp hw)
  exact ⟨l, Dict.find?_present hlive hl, hextends⟩

/-- A record that extends another one has each field of that, with fields added to its value. -/
theorem Extends.field (key : String) (l? : Option Json) (w : Json)
    (h : (record live).Extends (record want)) (hlive : (live.map Prod.fst).Nodup)
    (hl : (key, l?) ∈ live) (hw : (key, some w) ∈ want) : ∃ l, l? = some l ∧ l.Extends w := by
  obtain ⟨lives, heq, hfields⟩ := h
  obtain rfl := Json.obj.inj heq
  obtain ⟨l, hfound, hextends⟩ := extendsFields_iff.mp hfields _ _ (Dict.mem_present_iff.mpr hw)
  rw [Dict.find?_present hlive hl] at hfound
  exact ⟨l, hfound, hextends⟩

end Records

/-! ### Well-formed values -/

/-- Items are well formed if each of them is. -/
theorem wellFormedItems_iff {items : List Json} :
    WellFormedItems items ↔ ∀ j ∈ items, j.WellFormed := by
  induction items with
  | nil => simp [WellFormedItems]
  | cons j rest ih => simp [WellFormedItems, ih]

/-- The values of fields are well formed if each of them is. -/
theorem wellFormedFields_iff {fields : List (String × Json)} :
    WellFormedFields fields ↔ ∀ e ∈ fields, e.2.WellFormed := by
  induction fields with
  | nil => simp [WellFormedFields]
  | cons e rest ih => simp [WellFormedFields, ih]

/-- A record of different keys is well formed if the fields that it has are. -/
theorem wellFormed_record {fields : List (String × Option Json)}
    (hkeys : (fields.map Prod.fst).Nodup)
    (h : ∀ e ∈ fields, ∀ j, e.2 = some j → j.WellFormed) : (record fields).WellFormed := by
  refine ⟨hkeys.sublist (Dict.keys_present_sublist fields), wellFormedFields_iff.mpr ?_⟩
  exact fun e he => h _ (Dict.mem_present_iff.mp he) _ rfl

end Json

end NodeFeatureOperator
