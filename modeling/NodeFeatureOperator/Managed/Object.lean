import NodeFeatureOperator.Digest.Sha256
import NodeFeatureOperator.Json.Printer
import NodeFeatureOperator.Json.Reader
import NodeFeatureOperator.Managed.Kind
import NodeFeatureOperator.Managed.Schema.Document
import NodeFeatureOperator.Managed.Schema.Objection
import NodeFeatureOperator.Text.Base64
import NodeFeatureOperator.Text.Hex

/-!
# Managed objects

An object of one of the four kinds: its metadata and the content of its kind. A ConfigMap holds
data; the other kinds hold a specification and a status.

## Main definitions

* `ManagedObject`: the object, read by `ManagedObject.ofWritten?` and written by
  `ManagedObject.toJson`.
* `ManagedObject.contentHash`: the digest of what an object holds.
* `ManagedObject.recordedHash`, `ManagedObject.recordHash`: the digest noted on an object.
-/

namespace NodeFeatureOperator

/-- The content of a ConfigMap; its binary data are the texts of bytes. -/
structure ConfigContent where
  data : Option (Dict String) := none
  binaryData : Option (Dict String) := none
  immutable : Option Bool := none
deriving DecidableEq, Repr, Inhabited

/-- The content of an object that runs pods. -/
structure Workload where
  spec : Option Json := none
  status : Option Json := none
deriving DecidableEq, Repr, Inhabited

/-- The content of an object, by its kind. -/
inductive Content where
  | configMap (content : ConfigContent)
  | daemonSet (content : Workload)
  | deployment (content : Workload)
  | job (content : Workload)
deriving DecidableEq, Repr, Inhabited

/-- A managed object. -/
structure ManagedObject where
  metadata : Metadata
  content : Content
deriving DecidableEq, Repr, Inhabited

/-- The kind that a content belongs to. -/
def Content.kind : Content → ResourceKind
  | .configMap _ => .configMap
  | .daemonSet _ => .daemonSet
  | .deployment _ => .deployment
  | .job _ => .job

namespace ManagedObject

/-- The kind of an object. -/
def kind (o : ManagedObject) : ResourceKind := o.content.kind

/-- The name, empty when it is absent. -/
def name (o : ManagedObject) : String := o.metadata.name.getD ""

/-- The namespace, empty when it is absent. -/
def ns (o : ManagedObject) : String := o.metadata.ns.getD ""

/-- The content of an object of a kind that holds nothing. -/
def emptyContent : ResourceKind → Content
  | .configMap => .configMap {}
  | .daemonSet => .daemonSet {}
  | .deployment => .deployment {}
  | .job => .job {}

/-- An object that carries only its name and namespace. -/
def empty (kind : ResourceKind) (name ns : String) : ManagedObject :=
  { metadata := { name := some name, ns := some ns }, content := emptyContent kind }

/-- The fields of a workload. -/
def workloadFields (w : Workload) : List (String × Option Json) :=
  [("spec", w.spec), ("status", w.status)]

/-- Writes an object. -/
def toJson (o : ManagedObject) : Json :=
  let head := ("apiVersion", some (.str o.kind.apiVersion))
  let identity : List (String × Option Json) :=
    [("kind", some (.str o.kind.text)), ("metadata", some o.metadata.toJson)]
  match o.content with
  | .configMap c =>
    .record (head :: ("binaryData", c.binaryData.map .textDict) ::
      ("data", c.data.map .textDict) :: ("immutable", c.immutable.map .bool) :: identity)
  | .daemonSet w => .record (head :: identity ++ workloadFields w)
  | .deployment w => .record (head :: identity ++ workloadFields w)
  | .job w => .record (head :: identity ++ workloadFields w)

/-- Reads a workload by the schemas of its specification and status. -/
def workloadOfFields? (spec status : Schema) (fields : Fields) : Option Workload := do
  let spec ← Field.optional spec.normalize "spec" fields
  let status ← Field.optional status.normalize "status" fields
  pure ⟨spec, status⟩

/-- Reads the content of an object of a kind. -/
def contentOfFields? (kind : ResourceKind) (fields : Fields) : Option Content :=
  match kind with
  | .configMap => do
    let data ← Field.optional Json.Written.textDict? "data" fields
    let binaryData ← Field.optional (Json.Written.dictOf? Json.Written.bytes?) "binaryData" fields
    let immutable ← Field.optional Json.Written.bool? "immutable" fields
    pure (.configMap ⟨data, binaryData, immutable⟩)
  | .daemonSet =>
    (workloadOfFields? Schema.daemonSetSpec Schema.daemonSetStatus fields).map .daemonSet
  | .deployment =>
    (workloadOfFields? Schema.deploymentSpec Schema.deploymentStatus fields).map .deployment
  | .job => (workloadOfFields? Schema.jobSpec Schema.jobStatus fields).map .job

/-- Reads a text that has to be a certain one. -/
def readExactly (expected : String) (w : Json.Written) : Option Unit :=
  if w.text? = some expected then some () else none

/-- Reads an object of a kind. Interface version and kind, where they are given, have to be those
of the kind; metadata may be missing. -/
def ofWritten? (kind : ResourceKind) (w : Json.Written) : Option ManagedObject := do
  let fields ← w.fields?
  Field.defaulted () (readExactly kind.apiVersion) "apiVersion" fields
  Field.defaulted () (readExactly kind.text) "kind" fields
  let metadata ← Field.lenient {} Metadata.ofWritten? "metadata" fields
  let content ← contentOfFields? kind fields
  pure ⟨metadata, content⟩

/-- Reads an object of a kind from a value. -/
def ofJson? (kind : ResourceKind) (j : Json) : Option ManagedObject := ofWritten? kind j.written

/-- Reads an object of a kind from text. -/
def ofText? (kind : ResourceKind) (text : String) : Option ManagedObject :=
  (Json.Written.ofText? text).bind (ofWritten? kind)

/-- What is objected to in a text that does not read as an object of a kind. -/
def objection? (kind : ResourceKind) (text : String) : Option Json.Objection :=
  (Schema.document kind).objection? text

/-- Why a document is not a managed object. -/
inductive DocumentError where
  /-- It names none of the four kinds. -/
  | unknownKind
  /-- It does not read as an object of the kind that it names. -/
  | malformed
deriving DecidableEq, Repr, Inhabited

/-- Reads an object of the kind that it names. -/
def ofDocument (j : Json) : Except DocumentError ManagedObject :=
  match ((j.field? "kind").bind Json.text?).bind ResourceKind.ofText? with
  | none => .error .unknownKind
  | some kind =>
    match ofJson? kind j with
    | none => .error .malformed
    | some o => .ok o

/-- The bytes of the text that is hashed. -/
def hashedBytes (j : Json) : List UInt8 := j.text.toUTF8.toList

/-- The first eight bytes of the SHA-256 digest of a value's text, in hexadecimal. -/
def hashOf (j : Json) : String := Text.hexBytes ((Sha256.hash (hashedBytes j)).take 8)

/-- The digest of what an object holds. -/
def contentHash (o : ManagedObject) : String := hashOf o.toJson

/-- The annotation that notes the digest of the content last written. -/
def hashAnnotation : String := "nfd.kubernetes.io/desired-hash"

/-- The digest noted on an object. -/
def recordedHash (o : ManagedObject) : Option String :=
  o.metadata.annotations.bind fun a => Dict.find? hashAnnotation a

/-- Notes a digest on an object. -/
def recordHash (hash : String) (o : ManagedObject) : ManagedObject :=
  let annotations := Dict.insert hashAnnotation hash (o.metadata.annotations.getD [])
  { o with metadata := { o.metadata with annotations := some annotations } }

end ManagedObject

end NodeFeatureOperator
