import NodeFeatureOperator.Json.Written

/-!
# Fields of documents

How a document's fields are read. A field may have to be present, may be missing with a default,
or may be missing or null. Where a field is written more than once all its values have to read, and
the last one counts. Fields of other names are not looked at.

A record of this operator is stricter: it refuses a repeated field, and it may also be written as
the list of its fields in their declared order.

## Main definitions

* `Field.last?`: what the values under a name amount to.
* `Field.required`, `Field.defaulted`, `Field.optional`, `Field.lenient`: one field.
* `Field.ofRecord?`: the fields of a record in either form.
-/

namespace NodeFeatureOperator

/-- The fields of an object as they are written. -/
abbrev Fields := List (String × Json.Written)

namespace Field

variable {α : Type}

/-- The values under a name, in their order. -/
def values (key : String) (fields : Fields) : List Json.Written :=
  (fields.filter fun e => e.1 == key).map Prod.snd

/-- The last of the values under a name, none if there are no values; all of them have to read. -/
def last? (read : Json.Written → Option α) (key : String) (fields : Fields) :
    Option (Option α) :=
  ((values key fields).mapM read).map List.getLast?

/-- A field that has to be present. -/
def required (read : Json.Written → Option α) (key : String) (fields : Fields) : Option α :=
  (last? read key fields).join

/-- A field with a default for when it is missing; null is not missing. -/
def defaulted (default : α) (read : Json.Written → Option α) (key : String) (fields : Fields) :
    Option α :=
  (last? read key fields).map fun v => v.getD default

/-- A field that may be missing or null. -/
def optional (read : Json.Written → Option α) (key : String) (fields : Fields) :
    Option (Option α) :=
  (last? (Json.Written.optional? read) key fields).map Option.join

/-- A field with a default for when it is missing or null. -/
def lenient (default : α) (read : Json.Written → Option α) (key : String) (fields : Fields) :
    Option α :=
  (optional read key fields).map fun v => v.getD default

/-- A text, empty when it is missing or null. -/
def text (key : String) (fields : Fields) : Option String :=
  lenient "" Json.Written.text? key fields

/-- A text that may be missing or null. -/
def optionalText (key : String) (fields : Fields) : Option (Option String) :=
  optional Json.Written.text? key fields

/-- The fields of a record with the declared names: an object in which none of them is repeated,
or a list of at least `least` of the fields in the declared order. -/
def ofRecord? (names : List String) (least : Nat) : Json.Written → Option Fields
  | .obj fields =>
    if names.all fun name => (values name fields).length ≤ 1 then some fields else none
  | .arr items =>
    if least ≤ items.length ∧ items.length ≤ names.length then some (names.zip items) else none
  | _ => none

end Field

end NodeFeatureOperator
