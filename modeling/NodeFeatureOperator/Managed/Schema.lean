import NodeFeatureOperator.Resource.Metadata
import NodeFeatureOperator.Text.Base64

/-!
# Schemas

The shape that a part of a managed object has. Reading by a schema refuses values of another type,
drops fields that are null or that the schema does not list, and puts in the fields that are always
written. Objects have a type whose name objections quote.

## Main definitions

* `Schema.normalize`: the normal form of a value under a schema.
* `Schema.opt`, `Schema.needText` and the others: how fields are listed.
-/

namespace NodeFeatureOperator

/-- Whether a field may be absent, or stands for a value when it is. -/
inductive Presence where
  | optional
  | always (default : Json)
deriving Repr, Inhabited

/-- The shape of a value. -/
inductive Schema where
  | text
  | boolean
  | integer (bits : Nat)
  /-- A number, or a text such as a percentage or the name of a port. -/
  | integerOrText
  | time
  /-- Bytes, written as text; null stands for no bytes at all. -/
  | bytes
  | anything
  /-- A text that has to be a certain one, as a field of an object. -/
  | exactly (expected : String)
  | list (item : Schema)
  | dict (item : Schema)
  /-- An object of a named type with the listed fields. -/
  | record (type : String) (fields : List (String × Presence × Schema))
deriving Repr, Inhabited

/-- The text of bytes; null stands for no bytes at all. -/
def Json.Written.bytes? : Json.Written → Option String
  | .null => some ""
  | w => w.text?.filter Text.isBase64

namespace Schema

mutual
/-- The normal form of a value, or `none` if the value has another shape. -/
def normalize : Schema → Json.Written → Option Json
  | .text, w => w.text?.map .str
  | .boolean, w => w.bool?.map .bool
  | .integer bits, w => (w.signed? bits).map .int
  | .integerOrText, w =>
    match w.text? with
    | some s => some (.str s)
    | none => (w.signed? 32).map .int
  | .time, w => (Time.ofWritten? w).map Time.toSecondJson
  | .bytes, w => w.bytes?.map .str
  | .anything, w => w.value
  | .exactly expected, w => (w.text?.filter (· = expected)).map .str
  | .list item, w => (w.listOf? (normalize item)).map .arr
  | .dict item, w => (w.dictOf? (normalize item)).map .obj
  | .record _ fields, w => w.fields?.bind fun given => (normalizeFields given fields).map .obj
termination_by structural s => s
/-- The listed fields in normal form. -/
def normalizeFields (given : Fields) :
    List (String × Presence × Schema) → Option (Dict Json)
  | [] => some []
  | (key, presence, s) :: rest =>
    match Field.optional (normalize s) key given, normalizeFields given rest with
    | some (some j), some done => some (Dict.insert key j done)
    | some none, some done =>
      match presence with
      | .optional => some done
      | .always default => some (Dict.insert key default done)
    | _, _ => none
termination_by structural l => l
end

/-- An optional field. -/
def opt (key : String) (s : Schema) : String × Presence × Schema := (key, .optional, s)

/-- An optional text. -/
def optText (key : String) : String × Presence × Schema := opt key .text

/-- An optional flag. -/
def optFlag (key : String) : String × Presence × Schema := opt key .boolean

/-- An optional number of 32 bits. -/
def optInt (key : String) : String × Presence × Schema := opt key (.integer 32)

/-- An optional number of 64 bits. -/
def optLong (key : String) : String × Presence × Schema := opt key (.integer 64)

/-- An optional list of texts. -/
def optTexts (key : String) : String × Presence × Schema := opt key (.list .text)

/-- An optional dictionary of texts. -/
def optDict (key : String) : String × Presence × Schema := opt key (.dict .text)

/-- An optional list of objects of a type. -/
def optList (key type : String) (fields : List (String × Presence × Schema)) :
    String × Presence × Schema := opt key (.list (.record type fields))

/-- An optional object of a type. -/
def optRecord (key type : String) (fields : List (String × Presence × Schema)) :
    String × Presence × Schema := opt key (.record type fields)

/-- A text that is written even when it is empty. -/
def needText (key : String) : String × Presence × Schema := (key, .always (.str ""), .text)

/-- A number of 32 bits that is written even when it is zero. -/
def needInt (key : String) : String × Presence × Schema :=
  (key, .always (.int 0), .integer 32)

/-- A number of 64 bits that is written even when it is zero. -/
def needLong (key : String) : String × Presence × Schema :=
  (key, .always (.int 0), .integer 64)

/-- A port by number or name that is written even when it is zero. -/
def needPort (key : String) : String × Presence × Schema :=
  (key, .always (.int 0), .integerOrText)

/-- A list that is written even when it is empty. -/
def needList (key : String) (item : Schema) : String × Presence × Schema :=
  (key, .always (.arr []), .list item)

/-- An object that is written even when it is empty; then its own fields that are always written
stand in it. -/
def needRecord (key type : String) (default : Dict Json)
    (fields : List (String × Presence × Schema)) : String × Presence × Schema :=
  (key, .always (.obj default), .record type fields)

/-- A selector of objects by their labels. -/
def labelSelector : Schema :=
  .record "LabelSelector" [
    optList "matchExpressions" "LabelSelectorRequirement"
      [needText "key", needText "operator", optTexts "values"],
    optDict "matchLabels"]

/-- The metadata of an object. -/
def objectMeta : Schema :=
  .record "ObjectMeta" [
    optDict "annotations", opt "creationTimestamp" .time, optLong "deletionGracePeriodSeconds",
    opt "deletionTimestamp" .time, optTexts "finalizers", optText "generateName",
    optLong "generation", optDict "labels",
    optList "managedFields" "ManagedFieldsEntry" [optText "apiVersion", optText "fieldsType",
      opt "fieldsV1" .anything, optText "manager", optText "operation", optText "subresource",
      opt "time" .time],
    optText "name", optText "namespace",
    optList "ownerReferences" "OwnerReference" [needText "apiVersion",
      optFlag "blockOwnerDeletion", optFlag "controller", needText "kind", needText "name",
      needText "uid"],
    optText "resourceVersion", optText "selfLink", optText "uid"]

end Schema

end NodeFeatureOperator
