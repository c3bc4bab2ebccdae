import NodeFeatureOperator.Resource.NodeFeatureDiscovery

/-!
# The definition of the resource

The document that makes NodeFeatureDiscovery known to the cluster: its names, the columns of its
listings, and the schema of its desired state and status.

## Main definitions

* `Definition.document`: the document.
-/

namespace NodeFeatureOperator

namespace Definition

/-- The name of the definition. -/
def name : String := NodeFeatureDiscovery.plural ++ "." ++ NodeFeatureDiscovery.group

/-- An object with fields given in any order. -/
def object (fields : List (String × Json)) : Json := .obj (Dict.ofEntries fields)

/-- The schema of a value of a type. -/
def typed (type : String) (more : List (String × Json)) : Json :=
  object (("type", .str type) :: more)

/-- The schema of a value of a type with a description. -/
def described (type description : String) (more : List (String × Json)) : Json :=
  typed type (("description", .str description) :: more)

/-- What a field is that may be null. -/
def nullable : String × Json := ("nullable", .bool true)

/-- What a field is that has a default. -/
def default (value : Json) : String × Json := ("default", value)

/-- The fields of an object. -/
def properties (fields : List (String × Json)) : String × Json := ("properties", object fields)

/-- The schema of a list. -/
def listOf (description : String) (item : Json) : Json :=
  described "array" description [("items", item)]

/-- The schema of a list of texts. -/
def texts (description : String) : Json := listOf description (typed "string" [])

/-- The schema of a flag that is off by default. -/
def flag (description : String) : Json := described "boolean" description [default (.bool false)]

/-- What a toleration is. -/
def tolerationDescription : String :=
  "The pod this Toleration is attached to tolerates any taint that matches the triple " ++
    "<key,value,effect> using the matching operator <operator>."

/-- What the effect of a toleration is. -/
def effectDescription : String :=
  "Effect indicates the taint effect to match. Empty means match all taint effects. When " ++
    "specified, allowed values are NoSchedule, PreferNoSchedule and NoExecute."

/-- What the key of a toleration is. -/
def keyDescription : String :=
  "Key is the taint key that the toleration applies to. Empty means match all taint " ++
    "keys. If the key is empty, operator must be Exists; this combination means to match " ++
    "all values and all keys."

/-- What the operator of a toleration is. -/
def operatorDescription : String :=
  "Operator represents a key's relationship to the value. Valid operators are Exists and Equal. " ++
    "Defaults to Equal. Exists is equivalent to wildcard for value, so that a pod can tolerate " ++
    "all taints of a particular category."

/-- What the period of a toleration is. -/
def secondsDescription : String :=
  "TolerationSeconds represents the period of time the toleration (which must be of " ++
    "effect NoExecute, otherwise this field is ignored) tolerates the taint. By default, " ++
    "it is not set, which means tolerate the taint forever (do not evict). Zero and " ++
    "negative values will be treated as 0 (evict immediately) by the system."

/-- What the value of a toleration is. -/
def valueDescription : String :=
  "Value is the taint value the toleration matches to. If the operator is Exists, the value " ++
    "should be empty, otherwise just a regular string."

/-- The schema of a toleration. -/
def toleration : Json :=
  described "object" tolerationDescription [
    properties [
      ("effect", described "string" effectDescription []),
      ("key", described "string" keyDescription []),
      ("operator", described "string" operatorDescription []),
      ("tolerationSeconds",
        described "integer" secondsDescription [("format", .str "int64")]),
      ("value", described "string" valueDescription [])]]

/-- The schema of the operand parameters. -/
def operand : Json :=
  described "object" "Operand image and networking parameters" [
    default (.obj []),
    properties [
      ("image", described "string" "Container image of the NFD operands" [nullable]),
      ("imagePullPolicy",
        described "string" "Image pull policy: Always, Never or IfNotPresent" [nullable]),
      ("servicePort", described "integer" "gRPC port nfd-master listens on"
        [("format", .str "int32"), nullable])]]

/-- The schema of the worker's configuration. -/
def workerConfig : Json :=
  described "object" "Worker configuration, copied verbatim into the nfd-worker ConfigMap" [
    default (.obj [("configData", .str "")]),
    properties [
      ("configData",
        described "string" "Raw nfd-worker.conf contents; not parsed by the operator"
          [default (.str "")])]]

/-- The description of the desired state, with an example on one line. -/
def specDescription : String :=
  "Desired state of an NFD deployment.\n\nExample: ```yaml apiVersion: " ++
    "nfd.kubernetes.io/v1 kind: NodeFeatureDiscovery metadata: name: nfd-instance " ++
    "namespace: node-feature-discovery spec: operand: image: " ++
    "registry.k8s.io/nfd/node-feature-discovery:v0.16.4 imagePullPolicy: IfNotPresent " ++
    "servicePort: 12000 topologyUpdater: true pruneOnDelete: true extraLabelNs: " ++
    "[\"vendor.example.com\"] workerConfig: configData: | core: sleepInterval: 60s ```"

/-- What the tolerations of the master are. -/
def masterTolerations : String :=
  "Extra tolerations for nfd-master and the prune Job, after the control-plane defaults"

/-- What the tolerations of the worker are. -/
def workerTolerations : String :=
  "Extra tolerations for nfd-worker, after the tolerate-all-NoSchedule default"

/-- The schema of the desired state. -/
def spec : Json :=
  described "object" specDescription [
    properties [
      ("enableTaints", flag "Allow nfd-master to set node taints"),
      ("extraLabelNs", texts "Extra label namespaces nfd-master accepts"),
      ("labelWhiteList",
        described "string" "Regular expression filtering the labels nfd-master publishes"
          [nullable]),
      ("operand", operand),
      ("pruneOnDelete",
        flag "Run the prune Job to remove NFD labels from nodes before deletion completes"),
      ("resourceLabels", texts "Extended resources nfd-master creates from feature labels"),
      ("tolerations", listOf masterTolerations toleration),
      ("topologyUpdater", flag "Deploy the topology updater DaemonSet"),
      ("workerConfig", workerConfig),
      ("workerTolerations", listOf workerTolerations toleration)]]

/-- The schema of a condition. -/
def condition : Json :=
  described "object" "Kubernetes-style condition for status reporting" [
    properties [
      ("lastTransitionTime", described "string" "Last time the condition transitioned"
        [("format", .str "date-time")]),
      ("message", described "string" "Human-readable message" []),
      ("reason", described "string" "Machine-readable reason for the condition" []),
      ("status", described "string" "Status of the condition (True, False, Unknown)"
        [("enum", .texts ["True", "False", "Unknown"])]),
      ("type", described "string"
        "Type of condition (Available, Progressing, Degraded, Upgradeable)" [])],
    ("required", .texts ["lastTransitionTime", "message", "reason", "status", "type"])]

/-- The schema of the status. -/
def status : Json :=
  described "object" "Observed state of an NFD deployment" [
    nullable,
    properties [
      ("conditions",
        listOf "Available, Progressing, Degraded and Upgradeable, always all four" condition)]]

/-- What the resource is. -/
def description : String :=
  "Auto-generated derived type for NodeFeatureDiscoverySpec via `CustomResource`"

/-- The schema of the resource. -/
def schema : Json :=
  described "object" description [
    properties [("spec", spec), ("status", status)],
    ("required", .texts ["spec"]),
    ("title", .str NodeFeatureDiscovery.kind)]

/-- A column of a listing. -/
def column (name path type : String) : Json :=
  object [("name", .str name), ("jsonPath", .str path), ("type", .str type)]

/-- The path of the status of a condition. -/
def conditionPath (type : ConditionType) : String :=
  ".status.conditions[?(@.type==\"" ++ type.text ++ "\")].status"

/-- The columns of a listing. -/
def columns : List Json := [
  column "Available" (conditionPath .available) "string",
  column "Degraded" (conditionPath .degraded) "string",
  column "Age" ".metadata.creationTimestamp" "date"]

/-- The names of the resource. -/
def names : Json :=
  object [
    ("categories", .arr []),
    ("kind", .str NodeFeatureDiscovery.kind),
    ("plural", .str NodeFeatureDiscovery.plural),
    ("shortNames", .texts ["nfd"]),
    ("singular", .str NodeFeatureDiscovery.kind.toLower)]

/-- The only version of the resource. -/
def servedVersion : Json :=
  object [
    ("name", .str NodeFeatureDiscovery.version),
    ("additionalPrinterColumns", .arr columns),
    ("schema", object [("openAPIV3Schema", schema)]),
    ("served", .bool true),
    ("storage", .bool true),
    ("subresources", object [("status", .obj [])])]

/-- The document. -/
def document : Json :=
  object [
    ("apiVersion", .str "apiextensions.k8s.io/v1"),
    ("kind", .str "CustomResourceDefinition"),
    ("metadata", object [("name", .str name)]),
    ("spec", object [
      ("group", .str NodeFeatureDiscovery.group),
      ("names", names),
      ("scope", .str "Namespaced"),
      ("versions", .arr [servedVersion])])]

end Definition

end NodeFeatureOperator
