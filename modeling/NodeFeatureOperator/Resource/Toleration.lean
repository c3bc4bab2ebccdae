import NodeFeatureOperator.Resource.Field

/-!
# Tolerations

A toleration lets a pod run on nodes with a matching taint. Every part may be absent.

## Main definitions

* `Toleration.ofWritten?`, `Toleration.toJson`: reading and writing.
-/

namespace NodeFeatureOperator

/-- A toleration of a pod. -/
structure Toleration where
  key : Option String := none
  operator : Option String := none
  value : Option String := none
  effect : Option String := none
  tolerationSeconds : Option Int := none
deriving DecidableEq, Repr, Inhabited

namespace Toleration

/-- Reads a toleration; a part that is null is absent. -/
def ofWritten? (w : Json.Written) : Option Toleration := do
  let fields ← w.fields?
  let key ← Field.optionalText "key" fields
  let operator ← Field.optionalText "operator" fields
  let value ← Field.optionalText "value" fields
  let effect ← Field.optionalText "effect" fields
  let tolerationSeconds ← Field.optional (Json.Written.signed? 64) "tolerationSeconds" fields
  pure ⟨key, operator, value, effect, tolerationSeconds⟩

/-- Writes a toleration; absent parts are left out. -/
def toJson (t : Toleration) : Json :=
  .record [
    ("effect", t.effect.map .str),
    ("key", t.key.map .str),
    ("operator", t.operator.map .str),
    ("tolerationSeconds", t.tolerationSeconds.map .int),
    ("value", t.value.map .str)]

end Toleration

end NodeFeatureOperator
