import NodeFeatureOperator.Managed.Schema.Pod

/-!
# Workloads

The specifications and the statuses of the kinds of objects that run pods.

## Main definitions

* `Schema.daemonSetSpec`, `Schema.deploymentSpec`, `Schema.jobSpec`: specifications.
* `Schema.daemonSetStatus`, `Schema.deploymentStatus`, `Schema.jobStatus`: statuses.
-/

namespace NodeFeatureOperator

namespace Schema

/-- The template field of a workload. -/
def templateField : String × Presence × Schema := ("template", .always (.obj []), podTemplate)

/-- The selector field of a workload. -/
def selectorField : String × Presence × Schema := ("selector", .always (.obj []), labelSelector)

/-- How a workload replaces its pods when it changes. -/
def rollout (key type rolling : String) : String × Presence × Schema :=
  optRecord key type [
    optRecord "rollingUpdate" rolling
      [opt "maxSurge" .integerOrText, opt "maxUnavailable" .integerOrText],
    optText "type"]

/-- The fields of a condition of a workload; others belong to some kinds only. -/
def conditionFields : List (String × Presence × Schema) :=
  [opt "lastTransitionTime" .time, optText "message", optText "reason", needText "status",
    needText "type"]

/-- The specification of a DaemonSet. -/
def daemonSetSpec : Schema :=
  .record "DaemonSetSpec" [optInt "minReadySeconds", optInt "revisionHistoryLimit", selectorField,
    templateField, rollout "updateStrategy" "DaemonSetUpdateStrategy" "RollingUpdateDaemonSet"]

/-- The status of a DaemonSet. -/
def daemonSetStatus : Schema :=
  .record "DaemonSetStatus" [optInt "collisionCount",
    optList "conditions" "DaemonSetCondition" conditionFields,
    needInt "currentNumberScheduled", needInt "desiredNumberScheduled",
    optInt "numberAvailable", needInt "numberMisscheduled", needInt "numberReady",
    optInt "numberUnavailable", optLong "observedGeneration", optInt "updatedNumberScheduled"]

/-- The specification of a Deployment. -/
def deploymentSpec : Schema :=
  .record "DeploymentSpec" [optInt "minReadySeconds", optFlag "paused",
    optInt "progressDeadlineSeconds", optInt "replicas", optInt "revisionHistoryLimit",
    selectorField, rollout "strategy" "DeploymentStrategy" "RollingUpdateDeployment",
    templateField]

/-- The status of a Deployment. -/
def deploymentStatus : Schema :=
  .record "DeploymentStatus" [optInt "availableReplicas", optInt "collisionCount",
    optList "conditions" "DeploymentCondition" (opt "lastUpdateTime" .time :: conditionFields),
    optLong "observedGeneration", optInt "readyReplicas", optInt "replicas",
    optInt "unavailableReplicas", optInt "updatedReplicas"]

/-- What a Job does about pods that fail. -/
def failurePolicy : String × Presence × Schema :=
  optRecord "podFailurePolicy" "PodFailurePolicy" [
    needList "rules" (.record "PodFailurePolicyRule" [
      needText "action",
      optRecord "onExitCodes" "PodFailurePolicyOnExitCodesRequirement"
        [optText "containerName", needText "operator", needList "values" (.integer 32)],
      optList "onPodConditions" "PodFailurePolicyOnPodConditionsPattern"
        [needText "status", needText "type"]])]

/-- When a Job counts as done although pods are missing. -/
def successPolicy : String × Presence × Schema :=
  optRecord "successPolicy" "SuccessPolicy"
    [needList "rules" (.record "SuccessPolicyRule"
      [optInt "succeededCount", optText "succeededIndexes"])]

/-- The specification of a Job. -/
def jobSpec : Schema :=
  .record "JobSpec" [optLong "activeDeadlineSeconds", optInt "backoffLimit",
    optInt "backoffLimitPerIndex", optText "completionMode", optInt "completions",
    optText "managedBy",
    optFlag "manualSelector", optInt "maxFailedIndexes", optInt "parallelism", failurePolicy,
    optText "podReplacementPolicy", opt "selector" labelSelector, successPolicy,
    optFlag "suspend", templateField, optInt "ttlSecondsAfterFinished"]

/-- The status of a Job. -/
def jobStatus : Schema :=
  .record "JobStatus" [optInt "active", optText "completedIndexes", opt "completionTime" .time,
    optList "conditions" "JobCondition" (opt "lastProbeTime" .time :: conditionFields),
    optInt "failed", optText "failedIndexes", optInt "ready", opt "startTime" .time,
    optInt "succeeded",
    optInt "terminating",
    optRecord "uncountedTerminatedPods" "UncountedTerminatedPods"
      [optTexts "failed", optTexts "succeeded"]]

end Schema

end NodeFeatureOperator
