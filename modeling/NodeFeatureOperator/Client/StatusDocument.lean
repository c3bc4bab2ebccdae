import NodeFeatureOperator.Failure
import NodeFeatureOperator.Json.Reader
import NodeFeatureOperator.Resource.Field

/-!
# Status documents

The documents by which the cluster interface says how a request ended: an error, or the outcome of
a deletion.

## Main definitions

* `Refusal.ofText?`: the refusal that an error document describes.
* `StatusDocument.isValid`: whether a text is the document of an outcome.
-/

namespace NodeFeatureOperator

namespace Refusal

/-- The fields of an error document. -/
def fieldNames : List String := ["status", "message", "reason", "code"]

/-- Reads an error document. Status and code are needed; the code fits into 16 bits. -/
def ofWritten? (w : Json.Written) : Option Refusal := do
  let fields ← Field.ofRecord? fieldNames 4 w
  let status ← Field.required Json.Written.text? "status" fields
  let message ← Field.defaulted "" Json.Written.text? "message" fields
  let reason ← Field.defaulted "" Json.Written.text? "reason" fields
  let code ← Field.required (Json.Written.unsigned? 16) "code" fields
  pure ⟨status, message, reason, code⟩

/-- The refusal that an error document describes. -/
def ofText? (text : String) : Option Refusal := (Json.Written.ofText? text).bind ofWritten?

end Refusal

namespace StatusDocument

/-- Reads the summary of an outcome. -/
def summary? : Json.Written → Option Unit
  | .str "Success" | .obj [("Success", .null)] => some ()
  | .str "Failure" | .obj [("Failure", .null)] => some ()
  | _ => none

/-- Reads a cause of an outcome. -/
def cause? (w : Json.Written) : Option Unit := do
  let fields ← Field.ofRecord? ["reason", "message", "field"] 0 w
  let _ ← Field.defaulted "" Json.Written.text? "reason" fields
  let _ ← Field.defaulted "" Json.Written.text? "message" fields
  let _ ← Field.defaulted "" Json.Written.text? "field" fields
  pure ()

/-- Reads the details of an outcome. -/
def details? (w : Json.Written) : Option Unit := do
  let names := ["name", "group", "kind", "uid", "causes", "retryAfterSeconds"]
  let fields ← Field.ofRecord? names 0 w
  let _ ← Field.defaulted "" Json.Written.text? "name" fields
  let _ ← Field.defaulted "" Json.Written.text? "group" fields
  let _ ← Field.defaulted "" Json.Written.text? "kind" fields
  let _ ← Field.defaulted "" Json.Written.text? "uid" fields
  let _ ← Field.defaulted [] (Json.Written.listOf? cause?) "causes" fields
  let _ ← Field.defaulted 0 (Json.Written.unsigned? 32) "retryAfterSeconds" fields
  pure ()

/-- Reads the document of an outcome. -/
def ofWritten? (w : Json.Written) : Option Unit := do
  let fields ← Field.ofRecord? ["status", "code", "message", "reason", "details"] 0 w
  let _ ← Field.optional summary? "status" fields
  let _ ← Field.defaulted 0 (Json.Written.unsigned? 16) "code" fields
  let _ ← Field.defaulted "" Json.Written.text? "message" fields
  let _ ← Field.defaulted "" Json.Written.text? "reason" fields
  let _ ← Field.optional details? "details" fields
  pure ()

/-- Whether a text is the document of an outcome. -/
def isValid (text : String) : Bool :=
  ((Json.Written.ofText? text).bind ofWritten?).isSome

end StatusDocument

end NodeFeatureOperator
