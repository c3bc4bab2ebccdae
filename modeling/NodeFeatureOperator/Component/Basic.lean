import NodeFeatureOperator.Managed.Kind

/-!
# Components

The managed objects of a deployment: each has a well-known name, a kind, and a label by which
messages call it.

## Main definitions

* `Component`: the six components.
* `Component.teardownOrder`: the five that a teardown deletes, in order.
-/

namespace NodeFeatureOperator

/-- An object managed on behalf of a NodeFeatureDiscovery. -/
inductive Component where
  /-- The worker's configuration. -/
  | workerConfig
  /-- The worker on every node. -/
  | worker
  /-- The master, which labels nodes. -/
  | master
  /-- The collector of stale objects. -/
  | collector
  /-- The topology updater on every node. -/
  | topologyUpdater
  /-- The job that takes the labels off the nodes. -/
  | prune
deriving DecidableEq, Repr, Inhabited

namespace Component

/-- The well-known name of the object. -/
def name : Component → String
  | .workerConfig => "nfd-worker"
  | .worker => "nfd-worker"
  | .master => "nfd-master"
  | .collector => "nfd-gc"
  | .topologyUpdater => "nfd-topology-updater"
  | .prune => "nfd-prune"

/-- The kind of the object. -/
def kind : Component → ResourceKind
  | .workerConfig => .configMap
  | .worker => .daemonSet
  | .master => .deployment
  | .collector => .deployment
  | .topologyUpdater => .daemonSet
  | .prune => .job

/-- The label in messages. -/
def label : Component → String
  | .workerConfig => "worker ConfigMap"
  | .worker => "worker DaemonSet"
  | .master => "master Deployment"
  | .collector => "gc Deployment"
  | .topologyUpdater => "topology updater DaemonSet"
  | .prune => "prune Job"

/-- The components that a teardown deletes, in the order of deletion. -/
def teardownOrder : List Component :=
  [.worker, .workerConfig, .topologyUpdater, .master, .collector]

end Component

end NodeFeatureOperator
