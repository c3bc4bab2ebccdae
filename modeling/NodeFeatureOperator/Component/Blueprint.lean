import NodeFeatureOperator.Component.Pod

/-!
# Blueprints of the components

The specification that each component has for a desired state. A blueprint depends on nothing
else, so that building an object twice gives the same object.

## Main definitions

* `Blueprint.masterArguments`: the command line of the master.
* `Blueprint.worker`, `Blueprint.master`, `Blueprint.collector`, `Blueprint.topologyUpdater`,
  `Blueprint.prune`: the specifications.
-/

namespace NodeFeatureOperator

namespace Blueprint

/-- The key of the worker's configuration file. -/
def configKey : String := "nfd-worker-conf"

/-- The upper bound on the run time of the prune Job, in seconds. -/
def pruneDeadline : Int := 600

/-- The directory of the worker's configuration. -/
def configDirectory : String := "/etc/kubernetes/node-feature-discovery"

/-- A container: its name, the program it runs, and the fields of its own. -/
def container (s : Spec) (name program : String) (arguments : Option (List String))
    (ports : Option Json) (security : Json) (mounts : Option Json) : Json :=
  .record [
    ("args", arguments.map .texts),
    ("command", some (.texts [program])),
    ("env", some Pod.environment),
    ("image", some (.str s.operand.effectiveImage)),
    ("imagePullPolicy", some (.str s.operand.pullPolicy)),
    ("name", some (.str name)),
    ("ports", ports),
    ("securityContext", some security),
    ("volumeMounts", mounts)]

/-- A pod of one container. -/
def pod (account : String) (container : Json) (affinity : Option Json)
    (restartPolicy : Option String) (tolerations : Option (List Toleration))
    (volumes : Option Json) : Json :=
  .record [
    ("affinity", affinity),
    ("containers", some (.arr [container])),
    ("restartPolicy", restartPolicy.map .str),
    ("serviceAccountName", some (.str account)),
    ("tolerations", tolerations.map Pod.tolerationsJson),
    ("volumes", volumes)]

/-- A flag with a list of values, for a list that is not empty. -/
def listFlag (flag : String) (values : List String) : List String :=
  if values.isEmpty then [] else [flag ++ "=" ++ ",".intercalate values]

/-- The flag of the label filter, for a filter that is not blank. -/
def whiteListFlag : Option String → List String
  | some filter => if Text.isBlank filter then [] else ["--label-whitelist=" ++ filter]
  | none => []

/-- The command line of the master: its port, and every other setting that has a value. -/
def masterArguments (s : Spec) : List String :=
  ["--port=" ++ toString s.operand.port] ++
    listFlag "--extra-label-ns" s.extraLabelNs ++
    listFlag "--resource-labels" s.resourceLabels ++
    whiteListFlag s.labelWhiteList ++
    (if s.enableTaints then ["--enable-taints"] else [])

/-- The specification of the master: one replica, on a control-plane node if there is one. -/
def master (s : Spec) : Json :=
  let name := Component.master.name
  let ports := .arr [.obj [("containerPort", .int s.operand.port), ("name", .str "grpc")]]
  let container := container s name "nfd-master" (some (masterArguments s)) (some ports)
    Pod.restrictedSecurity none
  let pod := pod name container (some Pod.controlPlaneAffinity) none
    (some (Pod.controlPlaneTolerations s)) none
  .obj [("replicas", .int 1), ("selector", Pod.selector name), ("template", Pod.template name pod)]

/-- The specification of the collector: one replica. -/
def collector (s : Spec) : Json :=
  let name := Component.collector.name
  let container := container s name "nfd-gc" none none Pod.restrictedSecurity none
  let pod := pod name container none none none none
  .obj [("replicas", .int 1), ("selector", Pod.selector name), ("template", Pod.template name pod)]

/-- The paths of the host that the worker inspects. -/
def workerMounts : List Pod.HostMount :=
  [{ name := "host-boot", hostPath := "/boot", mountPath := "/host-boot" },
   { name := "host-os-release", hostPath := "/etc/os-release",
     mountPath := "/host-etc/os-release" },
   { name := "host-sys", hostPath := "/sys", mountPath := "/host-sys" },
   { name := "host-usr-lib", hostPath := "/usr/lib", mountPath := "/host-usr/lib" },
   { name := "host-lib", hostPath := "/lib", mountPath := "/host-lib" },
   { name := "source-d", hostPath := "/etc/kubernetes/node-feature-discovery/source.d/",
     mountPath := "/etc/kubernetes/node-feature-discovery/source.d/" },
   { name := "features-d", hostPath := "/etc/kubernetes/node-feature-discovery/features.d/",
     mountPath := "/etc/kubernetes/node-feature-discovery/features.d/" }]

/-- The volume of the worker's configuration file. -/
def configVolume : Json :=
  .obj [
    ("configMap", .obj [
      ("items", .arr [.obj [("key", .str configKey), ("path", .str "nfd-worker.conf")]]),
      ("name", .str Component.workerConfig.name)]),
    ("name", .str "nfd-worker-conf")]

/-- The specification of the worker: a pod on every node with a view of the host. -/
def worker (s : Spec) : Json :=
  let name := Component.worker.name
  let mounts := workerMounts.map Pod.HostMount.mount ++
    [Pod.readOnlyMount "nfd-worker-conf" configDirectory]
  let volumes := workerMounts.map Pod.HostMount.volume ++ [configVolume]
  let container := container s name "nfd-worker"
    (some ["-config=" ++ configDirectory ++ "/nfd-worker.conf"]) none Pod.restrictedSecurity
    (some (.arr mounts))
  let pod := pod name container none none (some (Pod.workerTolerations s)) (some (.arr volumes))
  .obj [("selector", Pod.selector name), ("template", Pod.template name pod)]

/-- The socket by which the kubelet tells what pods use. -/
def kubeletSocket : Pod.HostMount :=
  { name := "kubelet-podresources-sock",
    hostPath := "/var/lib/kubelet/pod-resources/kubelet.sock",
    mountPath := "/host-var/lib/kubelet/pod-resources/kubelet.sock",
    pathType := some "Socket" }

/-- The accounting files of the host. -/
def hostSys : Pod.HostMount := { name := "host-sys", hostPath := "/sys", mountPath := "/host-sys" }

/-- The specification of the topology updater: a pod on every node with access to the kubelet. -/
def topologyUpdater (s : Spec) : Json :=
  let name := Component.topologyUpdater.name
  let container := container s name "nfd-topology-updater"
    (some ["-podresources-socket=" ++ kubeletSocket.mountPath, "-sleep-interval=3s"]) none
    Pod.privilegedSecurity (some (.arr [kubeletSocket.mount, hostSys.mount]))
  let pod := pod name container none none none (some (.arr [kubeletSocket.volume, hostSys.volume]))
  .obj [("selector", Pod.selector name), ("template", Pod.template name pod)]

/-- The specification of the prune Job: one run of the master that cleans the nodes. -/
def prune (s : Spec) : Json :=
  let name := Component.prune.name
  let container := container s name "nfd-master" (some ["-prune"]) none Pod.restrictedSecurity none
  let pod := pod name container (some Pod.controlPlaneAffinity) (some "Never")
    (some (Pod.controlPlaneTolerations s)) none
  .obj [("activeDeadlineSeconds", .int pruneDeadline), ("completions", .int 1),
    ("parallelism", .int 1), ("template", Pod.template name pod)]

end Blueprint

end NodeFeatureOperator
