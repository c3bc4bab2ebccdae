import NodeFeatureOperator.Managed.Schema.Volume

/-!
# Pods

The specification of the pods that a workload runs.

## Main definitions

* `Schema.container`: a container of a pod.
* `Schema.podTemplate`: what the pods of a workload are made from.
-/

namespace NodeFeatureOperator

namespace Schema

/-- A command that is run in a container. -/
def exec : String × Presence × Schema := optRecord "exec" "ExecAction" [optTexts "command"]

/-- A request that is made to a container. -/
def httpGet : String × Presence × Schema :=
  optRecord "httpGet" "HTTPGetAction" [optText "host",
    optList "httpHeaders" "HTTPHeader" [needText "name", needText "value"], optText "path",
    needPort "port", optText "scheme"]

/-- A connection that is made to a container. -/
def tcpSocket : String × Presence × Schema :=
  optRecord "tcpSocket" "TCPSocketAction" [optText "host", needPort "port"]

/-- What is done at a point of a container's life. -/
def handler (key : String) : String × Presence × Schema :=
  optRecord key "LifecycleHandler"
    [exec, httpGet, optRecord "sleep" "SleepAction" [needLong "seconds"], tcpSocket]

/-- How the health of a container is found out. -/
def probe (key : String) : String × Presence × Schema :=
  optRecord key "Probe" [exec, optInt "failureThreshold",
    optRecord "grpc" "GRPCAction" [needInt "port", optText "service"], httpGet,
    optInt "initialDelaySeconds",
    optInt "periodSeconds", optInt "successThreshold", tcpSocket,
    optLong "terminationGracePeriodSeconds", optInt "timeoutSeconds"]

/-- The resources of a container or pod. -/
def resources : String × Presence × Schema :=
  optRecord "resources" "ResourceRequirements"
    (optList "claims" "ResourceClaim" [needText "name", optText "request"] :: amounts)

/-- The part of a security context that containers and pods share. -/
def sharedContext : List (String × Presence × Schema) :=
  [optRecord "appArmorProfile" "AppArmorProfile"
      [optText "localhostProfile", needText "type"],
    optLong "runAsGroup", optFlag "runAsNonRoot", optLong "runAsUser",
    optRecord "seLinuxOptions" "SELinuxOptions"
      [optText "level", optText "role", optText "type", optText "user"],
    optRecord "seccompProfile" "SeccompProfile"
      [optText "localhostProfile", needText "type"],
    optRecord "windowsOptions" "WindowsSecurityContextOptions"
      [optText "gmsaCredentialSpec", optText "gmsaCredentialSpecName", optFlag "hostProcess",
        optText "runAsUserName"]]

/-- The security context of a container. -/
def containerContext : List (String × Presence × Schema) :=
  [optFlag "allowPrivilegeEscalation",
    optRecord "capabilities" "Capabilities" [optTexts "add", optTexts "drop"],
    optFlag "privileged", optText "procMount", optFlag "readOnlyRootFilesystem"] ++ sharedContext

/-- The security context of a pod. -/
def podContext : List (String × Presence × Schema) :=
  [optLong "fsGroup", optText "fsGroupChangePolicy", optText "seLinuxChangePolicy",
    opt "supplementalGroups" (.list (.integer 64)), optText "supplementalGroupsPolicy",
    optList "sysctls" "Sysctl" [needText "name", needText "value"]] ++ sharedContext

/-- A key of an object that an environment variable is taken from. -/
def keyReference (key type : String) : String × Presence × Schema :=
  optRecord key type [needText "key", needText "name", optFlag "optional"]

/-- An environment variable. -/
def variableFields : List (String × Presence × Schema) :=
  [needText "name", optText "value",
    optRecord "valueFrom" "EnvVarSource"
      [keyReference "configMapKeyRef" "ConfigMapKeySelector", fieldReference, resourceReference,
        keyReference "secretKeyRef" "SecretKeySelector"]]

/-- An object that environment variables are taken from. -/
def environmentSource (key type : String) : String × Presence × Schema :=
  optRecord key type [needText "name", optFlag "optional"]

/-- The fields of a container. -/
def containerFields : List (String × Presence × Schema) :=
  [optTexts "args", optTexts "command", optList "env" "EnvVar" variableFields,
    optList "envFrom" "EnvFromSource" [environmentSource "configMapRef" "ConfigMapEnvSource",
      optText "prefix", environmentSource "secretRef" "SecretEnvSource"],
    optText "image", optText "imagePullPolicy",
    optRecord "lifecycle" "Lifecycle" [handler "postStart", handler "preStop"],
    probe "livenessProbe", needText "name",
    optList "ports" "ContainerPort" [needInt "containerPort", optText "hostIP",
      optInt "hostPort", optText "name", optText "protocol"],
    probe "readinessProbe",
    optList "resizePolicy" "ContainerResizePolicy"
      [needText "resourceName", needText "restartPolicy"], resources,
    optText "restartPolicy", optRecord "securityContext" "SecurityContext" containerContext,
    probe "startupProbe", optFlag "stdin", optFlag "stdinOnce",
    optText "terminationMessagePath", optText "terminationMessagePolicy", optFlag "tty",
    optList "volumeDevices" "VolumeDevice" [needText "devicePath", needText "name"],
    optList "volumeMounts" "VolumeMount" [needText "mountPath", optText "mountPropagation",
      needText "name", optFlag "readOnly", optText "recursiveReadOnly", optText "subPath",
      optText "subPathExpr"],
    optText "workingDir"]

/-- A container of a pod. -/
def container : Schema := .record "Container" containerFields

/-- A condition on a node. -/
def nodeTerm : List (String × Presence × Schema) :=
  let requirement := [needText "key", needText "operator", optTexts "values"]
  [optList "matchExpressions" "NodeSelectorRequirement" requirement,
    optList "matchFields" "NodeSelectorRequirement" requirement]

/-- A condition on the pods near by. -/
def podTerm : List (String × Presence × Schema) :=
  [opt "labelSelector" labelSelector, optTexts "matchLabelKeys", optTexts "mismatchLabelKeys",
    opt "namespaceSelector" labelSelector, optTexts "namespaces", needText "topologyKey"]

/-- Conditions on the pods near by, wished for or required. -/
def podAffinity (key type : String) : String × Presence × Schema :=
  optRecord key type [
    optList "preferredDuringSchedulingIgnoredDuringExecution" "WeightedPodAffinityTerm"
      [needRecord "podAffinityTerm" "PodAffinityTerm" [("topologyKey", .str "")] podTerm,
        needInt "weight"],
    optList "requiredDuringSchedulingIgnoredDuringExecution" "PodAffinityTerm" podTerm]

/-- Where a pod is to run. -/
def affinity : String × Presence × Schema :=
  optRecord "affinity" "Affinity" [
    optRecord "nodeAffinity" "NodeAffinity" [
      optList "preferredDuringSchedulingIgnoredDuringExecution" "PreferredSchedulingTerm"
        [needRecord "preference" "NodeSelectorTerm" [] nodeTerm, needInt "weight"],
      optRecord "requiredDuringSchedulingIgnoredDuringExecution" "NodeSelector"
        [needList "nodeSelectorTerms" (.record "NodeSelectorTerm" nodeTerm)]],
    podAffinity "podAffinity" "PodAffinity", podAffinity "podAntiAffinity" "PodAntiAffinity"]

/-- How a pod resolves names. -/
def dnsConfig : String × Presence × Schema :=
  optRecord "dnsConfig" "PodDNSConfig"
    [optTexts "nameservers",
      optList "options" "PodDNSConfigOption" [optText "name", optText "value"],
      optTexts "searches"]

/-- How pods are spread. -/
def spreadConstraints : String × Presence × Schema :=
  optList "topologySpreadConstraints" "TopologySpreadConstraint"
    [opt "labelSelector" labelSelector, optTexts "matchLabelKeys", needInt "maxSkew",
      optInt "minDomains", optText "nodeAffinityPolicy", optText "nodeTaintsPolicy",
      needText "topologyKey", needText "whenUnsatisfiable"]

/-- The specification of a pod. -/
def podSpec : Schema :=
  .record "PodSpec" [
    optLong "activeDeadlineSeconds", affinity, optFlag "automountServiceAccountToken",
    needList "containers" container, dnsConfig, optText "dnsPolicy",
    optFlag "enableServiceLinks",
    optList "ephemeralContainers" "EphemeralContainer"
      (containerFields ++ [optText "targetContainerName"]),
    optList "hostAliases" "HostAlias" [optTexts "hostnames", needText "ip"], optFlag "hostIPC",
    optFlag "hostNetwork", optFlag "hostPID", optFlag "hostUsers", optText "hostname",
    optList "imagePullSecrets" "LocalObjectReference" [needText "name"],
    opt "initContainers" (.list container), optText "nodeName", optDict "nodeSelector",
    optRecord "os" "PodOS" [needText "name"],
    optDict "overhead", optText "preemptionPolicy", optInt "priority",
    optText "priorityClassName",
    optList "readinessGates" "PodReadinessGate" [needText "conditionType"],
    optList "resourceClaims" "PodResourceClaim"
      [needText "name", optText "resourceClaimName", optText "resourceClaimTemplateName"],
    resources, optText "restartPolicy", optText "runtimeClassName", optText "schedulerName",
    optList "schedulingGates" "PodSchedulingGate" [needText "name"],
    optRecord "securityContext" "PodSecurityContext" podContext,
    optText "serviceAccount", optText "serviceAccountName", optFlag "setHostnameAsFQDN",
    optFlag "shareProcessNamespace", optText "subdomain",
    optLong "terminationGracePeriodSeconds",
    optList "tolerations" "Toleration" [optText "effect", optText "key", optText "operator",
      optLong "tolerationSeconds", optText "value"],
    spreadConstraints, opt "volumes" (.list volume)]

/-- What the pods of a workload are made from. -/
def podTemplate : Schema :=
  .record "PodTemplateSpec" [opt "metadata" objectMeta, opt "spec" podSpec]

end Schema

end NodeFeatureOperator
