import NodeFeatureOperator.Proofs.Recognition
import NodeFeatureOperator.Proofs.Unambiguous

/-!
# What a digest tells

The digest of an object is taken of the bytes of its compact text. Every step up to these bytes can
be undone: an object that was built shows all of itself in the value that is written for it, the
value in its text, and the text in its bytes. What is lost is lost in the hash and by keeping eight
bytes of it only. So objects that were built and differ anywhere differ in what is hashed, and their
digests agree only if two messages collide.

## Main definitions

* `Sha256.Collide`: different messages whose digests begin with the same eight bytes.

## Main results

* `ManagedObject.hashOf_eq_iff`: when two values have one digest.
* `ManagedObject.content_of_toJson_eq`: a written object shows its content.
* `Component.proper_desired`, `Component.eq_of_toJson_eq`: what is built is written properly, and
  shows all of itself.
* `hashed_bytes_tell_apart`: every change of a built object changes the bytes that are hashed.
-/

namespace NodeFeatureOperator

/-! ### From a digest to a value -/

/-- The loop that lists bytes adds those from its position on. -/
theorem bytesLoop_eq (b : ByteArray) (i : Nat) (read : List UInt8) :
    ByteArray.toList.loop b i read = read.reverse ++ b.data.toList.drop i := by
  fun_induction ByteArray.toList.loop b i read with
  | case1 i read h ih =>
      have hlt : i < b.data.toList.length := h
      have hbyte : b.get! i = b.data.toList[i] := getElem!_pos b.data i h
      rw [ih, List.drop_eq_getElem_cons hlt, List.reverse_cons, List.append_assoc, hbyte]
      rfl
  | case2 i read h =>
      have hle : b.data.toList.length ≤ i := Nat.le_of_not_lt h
      rw [List.drop_eq_nil_of_le hle, List.append_nil]

/-- Bytes are determined by their list. -/
theorem bytes_ext {a b : ByteArray} (h : a.toList = b.toList) : a = b := by
  rw [ByteArray.toList, ByteArray.toList, bytesLoop_eq, bytesLoop_eq] at h
  exact ByteArray.ext (Array.toList_inj.mp h)

namespace Text

/-- Different digits are written by different characters. -/
theorem digitChar_inj {m n : Nat} (hm : m < 16) (hn : n < 16)
    (h : Nat.digitChar m = Nat.digitChar n) : m = n := by
  have hall : ∀ m < 16, ∀ n < 16, Nat.digitChar m = Nat.digitChar n → m = n := by decide
  exact hall m hm n hn h

/-- Bytes are determined by their hexadecimal text. -/
theorem hexBytes_injective {a b : List UInt8} (h : hexBytes a = hexBytes b) : a = b := by
  replace h := String.ofList_injective h
  induction a generalizing b with
  | nil =>
      cases b with
      | nil => rfl
      | cons y b => simp [hexByte] at h
  | cons x a ih =>
      cases b with
      | nil => simp [hexByte] at h
      | cons y b =>
          simp only [List.flatMap_cons, hexByte, List.cons_append, List.nil_append,
            List.cons.injEq] at h
          obtain ⟨hhigh, hlow, hrest⟩ := h
          have hx := x.toNat_lt
          have hy := y.toNat_lt
          have hquotient := digitChar_inj (by omega) (by omega) hhigh
          have hremainder := digitChar_inj (by omega) (by omega) hlow
          have hbyte : x = y := UInt8.toNat_inj.mp (by omega)
          rw [hbyte, ih hrest]

end Text

/-- Two messages collide: they are different, and their digests begin with the same eight bytes. -/
def Sha256.Collide (a b : List UInt8) : Prop := a ≠ b ∧ (hash a).take 8 = (hash b).take 8

namespace ManagedObject

variable {j j' : Json} {o o' : ManagedObject}

/-- The bytes that are hashed are those of the characters that are written. -/
theorem hashedBytes_eq (j : Json) : hashedBytes j = j.chars.flatMap String.utf8EncodeChar := by
  rw [hashedBytes, ByteArray.toList, bytesLoop_eq, Json.text]
  change (String.ofList j.chars).toByteArray.data.toList = _
  rw [String.toByteArray_ofList, List.utf8Encode, List.data_toByteArray]

/-- Integral values of which the same bytes are hashed are equal. -/
theorem hashedBytes_inj (hj : j.Integral) (hj' : j'.Integral) :
    hashedBytes j = hashedBytes j' ↔ j = j' := by
  refine ⟨fun h => ?_, congrArg hashedBytes⟩
  have htext : j.text = j'.text := String.toByteArray_inj.mp (bytes_ext h)
  exact (Json.text_inj hj hj').mp htext

/-- Values have one digest if the hashes of their bytes begin with the same eight bytes. -/
theorem hashOf_eq_iff_take_eq : hashOf j = hashOf j' ↔
    (Sha256.hash (hashedBytes j)).take 8 = (Sha256.hash (hashedBytes j')).take 8 :=
  ⟨fun h => Text.hexBytes_injective h, congrArg Text.hexBytes⟩

/-- Integral values have one digest if they are equal, or if their bytes collide. -/
theorem hashOf_eq_iff (hj : j.Integral) (hj' : j'.Integral) :
    hashOf j = hashOf j' ↔ j = j' ∨ Sha256.Collide (hashedBytes j) (hashedBytes j') := by
  rw [hashOf_eq_iff_take_eq]
  constructor
  · intro hprefix
    by_cases heq : j = j'
    · exact .inl heq
    · exact .inr ⟨mt (hashedBytes_inj hj hj').mp heq, hprefix⟩
  · rintro (rfl | ⟨-, hprefix⟩)
    · rfl
    · exact hprefix

end ManagedObject

/-! ### From a value to an object -/

/-- Records with the same keys are equal field by field. -/
theorem Json.eq_of_record_eq {fields fields' : List (String × Option Json)}
    (h : record fields = record fields') (hkeys : fields.map Prod.fst = fields'.map Prod.fst)
    (hnodup : (fields.map Prod.fst).Nodup) : fields = fields' :=
  Dict.eq_of_present_eq hkeys hnodup (Json.obj.inj h)

/-- Dictionaries of texts are determined by how they are written. -/
theorem Json.textDict_injective : Function.Injective textDict := by
  intro d d' h
  have hentry : Function.Injective fun e : String × String => (e.1, Json.str e.2) := by
    intro e e' heq
    obtain ⟨hkey, hvalue⟩ := Prod.mk.inj heq
    exact Prod.ext hkey (Json.str.inj hvalue)
  exact List.map_injective_iff.mpr hentry (Json.obj.inj h)

/-- So are flags that may be absent. -/
theorem Json.map_bool_injective : Function.Injective (Option.map Json.bool) :=
  Option.map_injective fun _ _ => Json.bool.inj

/-- References to owners are determined by how they are written. -/
theorem OwnerReference.toJson_injective {r r' : OwnerReference} (h : r.toJson = r'.toJson) :
    r = r' := by
  have hfields := Json.eq_of_record_eq h rfl (by simp)
  simp only [List.cons.injEq, Prod.mk.injEq, Option.some.injEq, Json.str.injEq, true_and,
    and_true] at hfields
  obtain ⟨hversion, hblock, hcontroller, hkind, hname, huid⟩ := hfields
  obtain ⟨version, kind, name, uid, controller, block⟩ := r
  obtain ⟨version', kind', name', uid', controller', block'⟩ := r'
  obtain rfl := Json.map_bool_injective hblock
  obtain rfl := Json.map_bool_injective hcontroller
  subst hversion hkind hname huid
  rfl

/-- The metadata of a build from scratch are determined by how they are written. -/
theorem Metadata.fresh_eq_of_toJson_eq {app app' ns ns' : String} {ref ref' : OwnerReference}
    (h : (fresh app ns ref).toJson = (fresh app' ns' ref').toJson) :
    fresh app ns ref = fresh app' ns' ref' := by
  have hfields := Json.eq_of_record_eq h rfl (by simp)
  simp only [fresh, Option.map_some, List.map_cons, List.map_nil, List.cons.injEq, Prod.mk.injEq,
    Option.some.injEq, Json.str.injEq, Json.arr.injEq, true_and, and_true] at hfields
  obtain ⟨-, rfl, rfl, href⟩ := hfields
  rw [OwnerReference.toJson_injective href]

/-- Kinds have different names. -/
theorem ResourceKind.text_injective {k k' : ResourceKind} (h : k.text = k'.text) : k = k' := by
  cases k <;> cases k' <;> first | rfl | exact absurd h (by decide)

namespace ManagedObject

/-- A written object shows its kind. -/
theorem field?_kind_toJson (o : ManagedObject) :
    o.toJson.field? "kind" = some (.str o.kind.text) := by
  obtain ⟨m, content⟩ := o
  cases content <;> exact Dict.find?_present (by simp [workloadFields]) (by simp [workloadFields])

/-- A written object shows its content, and how its metadata are written. -/
theorem content_of_toJson_eq {o o' : ManagedObject} (h : o.toJson = o'.toJson) :
    o.content = o'.content ∧ o.metadata.toJson = o'.metadata.toJson := by
  have hkind : o.kind = o'.kind := by
    have hfield := o.field?_kind_toJson
    rw [h, field?_kind_toJson] at hfield
    exact (ResourceKind.text_injective (Json.str.inj (Option.some.inj hfield))).symm
  obtain ⟨m, content⟩ := o
  obtain ⟨m', content'⟩ := o'
  match content, content', hkind with
  | .configMap c, .configMap c', _ =>
      have hfields := Json.eq_of_record_eq h rfl (by simp)
      simp only [List.cons.injEq, Prod.mk.injEq, Option.some.injEq, true_and, and_true] at hfields
      obtain ⟨-, hbinary, hdata, himmutable, -, hmetadata⟩ := hfields
      obtain ⟨data, binary, immutable⟩ := c
      obtain ⟨data', binary', immutable'⟩ := c'
      obtain rfl := Option.map_injective Json.textDict_injective hbinary
      obtain rfl := Option.map_injective Json.textDict_injective hdata
      obtain rfl := Json.map_bool_injective himmutable
      exact ⟨rfl, hmetadata⟩
  | .daemonSet w, .daemonSet w', _ | .deployment w, .deployment w', _ | .job w, .job w', _ =>
      have hfields := Json.eq_of_record_eq h rfl (by simp [workloadFields])
      simp only [workloadFields, List.cons_append, List.nil_append, List.cons.injEq,
        Prod.mk.injEq, Option.some.injEq, true_and, and_true] at hfields
      obtain ⟨-, -, hmetadata, hspec, hstatus⟩ := hfields
      obtain ⟨spec, status⟩ := w
      obtain ⟨spec', status'⟩ := w'
      subst hspec hstatus
      exact ⟨rfl, hmetadata⟩

end ManagedObject

/-! ### What is built is proper -/

/-- The metadata of a build from scratch are proper. -/
theorem Metadata.proper_fresh (app ns : String) (ref : OwnerReference) :
    (fresh app ns ref).toJson.Proper := by
  simp [fresh, toJson, Json.textDict, Dict.mapValues, appLabel, managedByLabel]

/-- A configuration that holds nothing but a text is proper if its metadata are. -/
theorem ManagedObject.proper_config {m : Metadata} (h : m.toJson.Proper) (key value : String) :
    (ManagedObject.mk m (.configMap { data := some [(key, value)] })).toJson.Proper := by
  simp [toJson, Json.textDict, Dict.mapValues, h]

/-- A workload that holds nothing but a specification is proper if its metadata and the
specification are. -/
theorem ManagedObject.proper_workload {version kind : String} {metadata spec : Json}
    (hmetadata : metadata.Proper) (hspec : spec.Proper) :
    (Json.record ([("apiVersion", some (.str version)), ("kind", some (.str kind)),
      ("metadata", some metadata)] ++ workloadFields { spec := some spec })).Proper := by
  simp [workloadFields, hmetadata, hspec]

namespace Component

variable {c c' : Component} {n n' : NodeFeatureDiscovery} {ns ns' : String} {o o' : ManagedObject}

/-- What is built from scratch has fresh metadata, and holds what fills an empty content. -/
theorem exists_fresh_of_desired (h : c.desired n ns = .ok o) :
    ∃ content ref, c.fill n.spec (ManagedObject.emptyContent c.kind) = some content ∧
      o = ⟨Metadata.fresh c.name ns ref, content⟩ := by
  obtain ⟨content, ref, hfill, -, -, rfl⟩ := built_eq_ok_iff.mp h
  exact ⟨content, ref, hfill, rfl⟩

/-- What is built from scratch is proper. -/
theorem proper_desired (h : c.desired n ns = .ok o) : o.toJson.Proper := by
  obtain ⟨content, ref, hfill, rfl⟩ := exists_fresh_of_desired h
  have hmetadata := Metadata.proper_fresh c.name ns ref
  cases c <;> simp only [fill, kind, ManagedObject.emptyContent, Option.some.injEq] at hfill <;>
    subst hfill
  · exact ManagedObject.proper_config hmetadata _ _
  · exact ManagedObject.proper_workload hmetadata (Blueprint.proper_worker n.spec)
  · exact ManagedObject.proper_workload hmetadata (Blueprint.proper_master n.spec)
  · exact ManagedObject.proper_workload hmetadata (Blueprint.proper_collector n.spec)
  · exact ManagedObject.proper_workload hmetadata (Blueprint.proper_topologyUpdater n.spec)
  · exact ManagedObject.proper_workload hmetadata (Blueprint.proper_prune n.spec)

/-- What is built from scratch is determined by how it is written. -/
theorem eq_of_toJson_eq (h : c.desired n ns = .ok o) (h' : c'.desired n' ns' = .ok o')
    (heq : o.toJson = o'.toJson) : o = o' := by
  obtain ⟨content, ref, -, rfl⟩ := exists_fresh_of_desired h
  obtain ⟨content', ref', -, rfl⟩ := exists_fresh_of_desired h'
  obtain ⟨rfl, hmetadata⟩ := ManagedObject.content_of_toJson_eq heq
  rw [Metadata.fresh_eq_of_toJson_eq hmetadata]

end Component

/-! ### What two digests tell -/

open ManagedObject (hashedBytes)

/-- **Every change of a built object changes the bytes that are hashed.** Of any two values of
objects, lists, texts, booleans, nulls and integers, however deep and with whatever characters, the
same bytes are hashed only if the values are equal. Components that are built, for any resources and
namespaces, are written as such values, and the same bytes are hashed of two of them only if they
are equal as objects. So their digests agree exactly if they are equal, or if these bytes
collide. -/
theorem hashed_bytes_tell_apart :
    (∀ j j' : Json, j.Integral → j'.Integral → (hashedBytes j = hashedBytes j' ↔ j = j')) ∧
    ∀ (c c' : Component) (n n' : NodeFeatureDiscovery) (ns ns' : String) (o o' : ManagedObject),
      c.desired n ns = .ok o → c'.desired n' ns' = .ok o' →
        o.toJson.Integral ∧ o'.toJson.Integral ∧
        (hashedBytes o.toJson = hashedBytes o'.toJson ↔ o = o') ∧
        (o.contentHash = o'.contentHash ↔
          o = o' ∨ Sha256.Collide (hashedBytes o.toJson) (hashedBytes o'.toJson)) := by
  refine ⟨fun j j' => ManagedObject.hashedBytes_inj, ?_⟩
  intro c c' n n' ns ns' o o' ho ho'
  have hj := (Component.proper_desired ho).2
  have hj' := (Component.proper_desired ho').2
  have hwritten : o.toJson = o'.toJson ↔ o = o' :=
    ⟨Component.eq_of_toJson_eq ho ho', congrArg ManagedObject.toJson⟩
  refine ⟨hj, hj', ?_, ?_⟩
  · rw [ManagedObject.hashedBytes_inj hj hj', hwritten]
  · rw [ManagedObject.contentHash, ManagedObject.contentHash, ManagedObject.hashOf_eq_iff hj hj',
      hwritten]

/-- A text that looks like another field is not taken for one, and a line feed in a configuration
not for the two characters that it is written with. -/
theorem hashed_bytes_tell_apart_disguised :
    let j : Json := .obj [("a", .str "x\",\"b\":\"y")]
    let j' : Json := .obj [("a", .str "x"), ("b", .str "y")]
    let n : NodeFeatureDiscovery :=
      { metadata := { name := some "nfd", uid := some "uid-1" }
        spec := { configData := "sources:\n" } }
    let n' : NodeFeatureDiscovery := { n with spec := { configData := "sources:\\n" } }
    j.Integral ∧ j'.Integral ∧ hashedBytes j ≠ hashedBytes j' ∧
      ∃ o o', Component.workerConfig.desired n "nfd" = .ok o ∧
        Component.workerConfig.desired n' "nfd" = .ok o' ∧
        hashedBytes o.toJson ≠ hashedBytes o'.toJson ∧
        (o.contentHash = o'.contentHash →
          Sha256.Collide (hashedBytes o.toJson) (hashedBytes o'.toJson)) := by
  intro j j' n n'
  have hj : j.Integral := ⟨trivial, trivial⟩
  have hj' : j'.Integral := ⟨trivial, trivial, trivial⟩
  obtain ⟨hvalues, hbuilt⟩ := hashed_bytes_tell_apart
  have ho : Component.workerConfig.desired n "nfd" = .ok _ := rfl
  have ho' : Component.workerConfig.desired n' "nfd" = .ok _ := rfl
  obtain ⟨-, -, hbytes, hdigests⟩ := hbuilt _ _ n n' _ _ _ _ ho ho'
  refine ⟨hj, hj', mt (hvalues j j' hj hj').mp (by decide), _, _, ho, ho', ?_, ?_⟩
  · exact mt hbytes.mp (by decide)
  · exact fun hsame => (hdigests.mp hsame).resolve_left (by decide)

end NodeFeatureOperator
