import NodeFeatureOperator.Json.Reader
import NodeFeatureOperator.Resource.Toleration
import NodeFeatureOperator.Text.Blank

/-!
# The desired state of a deployment

What a user asks for: the operand image and its parameters, the worker's configuration, which
optional operands to run, and extra tolerations.

## Main definitions

* `Spec.ofWritten?`, `Spec.toJson`: reading and writing.
* `Operand.effectiveImage`, `Operand.pullPolicy`, `Operand.port`: settings with their defaults.
-/

namespace NodeFeatureOperator

/-- The parameters of every operand's pod. -/
structure Operand where
  image : Option String := none
  imagePullPolicy : Option String := none
  servicePort : Option Int := none
deriving DecidableEq, Repr, Inhabited

namespace Operand

/-- The image that runs when none is named. -/
def defaultImage : String := "registry.k8s.io/nfd/node-feature-discovery:v0.16.4"

/-- The port that the master listens on when none is named. -/
def defaultPort : Int := 12000

/-- The image to run; a blank one counts as none. -/
def effectiveImage (o : Operand) : String :=
  match o.image with
  | some image => if Text.isBlank image then defaultImage else image
  | none => defaultImage

/-- The pull policy: one of two policies by its exact name, and `Always` for anything else. -/
def pullPolicy (o : Operand) : String :=
  if o.imagePullPolicy = some "Never" then "Never"
  else if o.imagePullPolicy = some "IfNotPresent" then "IfNotPresent"
  else "Always"

/-- The port of the master; a port that is not positive counts as none. -/
def port (o : Operand) : Int :=
  match o.servicePort with
  | some port => if 0 < port then port else defaultPort
  | none => defaultPort

/-- Reads the parameters. -/
def ofWritten? (w : Json.Written) : Option Operand := do
  let fields ← Field.ofRecord? ["image", "imagePullPolicy", "servicePort"] 0 w
  let image ← Field.optionalText "image" fields
  let imagePullPolicy ← Field.optionalText "imagePullPolicy" fields
  let servicePort ← Field.optional (Json.Written.signed? 32) "servicePort" fields
  pure ⟨image, imagePullPolicy, servicePort⟩

/-- Writes the parameters; absent ones are left out. -/
def toJson (o : Operand) : Json :=
  .record [
    ("image", o.image.map .str),
    ("imagePullPolicy", o.imagePullPolicy.map .str),
    ("servicePort", o.servicePort.map .int)]

end Operand

/-- The desired state of a deployment. -/
structure Spec where
  operand : Operand := {}
  /-- The contents of the worker's configuration file, copied as they are. -/
  configData : String := ""
  topologyUpdater : Bool := false
  pruneOnDelete : Bool := false
  extraLabelNs : List String := []
  resourceLabels : List String := []
  labelWhiteList : Option String := none
  enableTaints : Bool := false
  tolerations : List Toleration := []
  workerTolerations : List Toleration := []
deriving DecidableEq, Repr, Inhabited

namespace Spec

/-- Reads the worker's configuration. -/
def configDataOfWritten? (w : Json.Written) : Option String := do
  let fields ← Field.ofRecord? ["configData"] 0 w
  Field.defaulted "" Json.Written.text? "configData" fields

/-- The names of the fields in their declared order. -/
def fieldNames : List String :=
  ["operand", "workerConfig", "topologyUpdater", "pruneOnDelete", "extraLabelNs",
    "resourceLabels", "labelWhiteList", "enableTaints", "tolerations", "workerTolerations"]

/-- Reads a desired state; every field may be missing. -/
def ofWritten? (w : Json.Written) : Option Spec := do
  let fields ← Field.ofRecord? fieldNames 0 w
  let operand ← Field.defaulted {} Operand.ofWritten? "operand" fields
  let configData ← Field.defaulted "" configDataOfWritten? "workerConfig" fields
  let topologyUpdater ← Field.defaulted false Json.Written.bool? "topologyUpdater" fields
  let pruneOnDelete ← Field.defaulted false Json.Written.bool? "pruneOnDelete" fields
  let extraLabelNs ← Field.defaulted [] Json.Written.texts? "extraLabelNs" fields
  let resourceLabels ← Field.defaulted [] Json.Written.texts? "resourceLabels" fields
  let labelWhiteList ← Field.optionalText "labelWhiteList" fields
  let enableTaints ← Field.defaulted false Json.Written.bool? "enableTaints" fields
  let tolerations ←
    Field.defaulted [] (Json.Written.listOf? Toleration.ofWritten?) "tolerations" fields
  let workerTolerations ←
    Field.defaulted [] (Json.Written.listOf? Toleration.ofWritten?) "workerTolerations" fields
  pure ⟨operand, configData, topologyUpdater, pruneOnDelete, extraLabelNs, resourceLabels,
    labelWhiteList, enableTaints, tolerations, workerTolerations⟩

/-- Reads a desired state from a value. -/
def ofJson? (j : Json) : Option Spec := ofWritten? j.written

/-- Reads a desired state from text. -/
def ofText? (text : String) : Option Spec := (Json.Written.ofText? text).bind ofWritten?

/-- A list that is left out when it is empty. -/
def unlessEmpty {α : Type} (write : α → Json) (items : List α) : Option Json :=
  if items.isEmpty then none else some (.arr (items.map write))

/-- Writes a desired state. Flags and records are always written, empty lists never. -/
def toJson (s : Spec) : Json :=
  .record [
    ("enableTaints", some (.bool s.enableTaints)),
    ("extraLabelNs", unlessEmpty .str s.extraLabelNs),
    ("labelWhiteList", s.labelWhiteList.map .str),
    ("operand", some s.operand.toJson),
    ("pruneOnDelete", some (.bool s.pruneOnDelete)),
    ("resourceLabels", unlessEmpty .str s.resourceLabels),
    ("tolerations", unlessEmpty Toleration.toJson s.tolerations),
    ("topologyUpdater", some (.bool s.topologyUpdater)),
    ("workerConfig", some (.obj [("configData", .str s.configData)])),
    ("workerTolerations", unlessEmpty Toleration.toJson s.workerTolerations)]

end Spec

end NodeFeatureOperator
