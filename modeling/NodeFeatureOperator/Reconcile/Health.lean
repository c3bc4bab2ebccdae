import NodeFeatureOperator.Cluster.Program
import NodeFeatureOperator.Component.Basic
import NodeFeatureOperator.Managed.JobState

/-!
# Health of the components

The condition set of a deployment is the verdict on the first of its workloads that is not healthy.
Workloads are read in a fixed order, and none is read after that one.

## Main definitions

* `Health`: the verdict on one workload, by `daemonSetHealth` and `deploymentHealth`.
* `observeConditions`: the condition set from the live workloads.
-/

namespace NodeFeatureOperator

/-- The verdict on a workload. -/
inductive Health where
  | healthy
  | progressing (reason message : String)
  | degraded (reason message : String)
deriving DecidableEq, Repr, Inhabited

/-- A workload that is looked at, and the subject that reasons and messages name. -/
structure HealthCheck where
  subject : String
  component : Component
deriving DecidableEq, Repr, Inhabited

namespace HealthCheck

/-- The workloads to look at, in order; the topology updater only where it is asked for. -/
def all (topologyUpdater : Bool) : List HealthCheck :=
  [⟨"NFDWorkerDaemonSet", .worker⟩, ⟨"NFDMasterDeployment", .master⟩,
    ⟨"NFDGCDeployment", .collector⟩] ++
    (if topologyUpdater then [⟨"NFDTopologyUpdaterDaemonSet", .topologyUpdater⟩] else [])

end HealthCheck

/-- A count in a status, zero where it or the status is missing. -/
def statusCount (key : String) (status : Option Json) : Int :=
  (status.bind fun s => s.count? key).getD 0

/-- The verdict on a DaemonSet: there are nodes to run on, some pod is scheduled, and all are
ready. -/
def daemonSetHealth (subject : String) (status : Option Json) : Health :=
  let desired := statusCount "desiredNumberScheduled" status
  let ready := statusCount "numberReady" status
  if desired = 0 then .degraded (subject ++ "Degraded") (subject ++ " has no desired nodes")
  else if statusCount "currentNumberScheduled" status = 0 then
    .degraded (subject ++ "Degraded") (subject ++ ": 0 nodes have pods scheduled")
  else if ready = desired then .healthy
  else .progressing (subject ++ "Progressing")
    (subject ++ ": " ++ toString ready ++ " of " ++ toString desired ++ " pods ready")

/-- The verdict on a Deployment: some replica is available. -/
def deploymentHealth (subject : String) (status : Option Json) : Health :=
  if statusCount "availableReplicas" status = 0 then
    .degraded (subject ++ "Degraded") (subject ++ " has no available replicas")
  else .healthy

/-- The verdict on a workload that could not be read. -/
def unobserved (subject message : String) : Health := .degraded ("FailedGetting" ++ subject) message

/-- The verdict on what was read for a check. An object is judged by the rule of its own kind. -/
def HealthCheck.judge (check : HealthCheck) (ns : String) :
    Except Failure (Option ManagedObject) → Health
  | .error f => unobserved check.subject f.message
  | .ok none =>
    unobserved check.subject
      (check.component.kind.text ++ " " ++ ns ++ "/" ++ check.component.name ++ " not found")
  | .ok (some object) =>
    match object.content with
    | .daemonSet w => daemonSetHealth check.subject w.status
    | .deployment w => deploymentHealth check.subject w.status
    | other =>
      unobserved check.subject
        ("expected a " ++ check.component.kind.text ++ ", got a " ++ other.kind.text)

/-- The verdict on the first workload of a list that is not healthy. -/
def firstUnhealthy (ns : String) : List HealthCheck → Program Health
  | [] => pure .healthy
  | check :: rest => do
    let found ← Program.request (.get check.component.kind check.component.name ns)
    match check.judge ns found with
    | .healthy => firstUnhealthy ns rest
    | verdict => pure verdict

/-- The condition set of a verdict. -/
def Health.conditions (time : Time) : Health → List Condition
  | .healthy => Condition.available time
  | .progressing reason message => Condition.progressing reason message time
  | .degraded reason message => Condition.degraded reason message time

/-- The condition set of a deployment from its live workloads. -/
def observeConditions (time : Time) (n : NodeFeatureDiscovery) : Program (List Condition) := do
  let verdict ← firstUnhealthy n.ns (HealthCheck.all n.spec.topologyUpdater)
  pure (verdict.conditions time)

end NodeFeatureOperator
