import NodeFeatureOperator.Client.Endpoint
import NodeFeatureOperator.Component.Ownership

/-!
# Watched collections

The controller follows all NodeFeatureDiscovery resources and the managed objects of every kind that
bear the operator's label. Following a collection starts with a request for a page of it.

## Main definitions

* `Watch.firstRequests`: the requests by which the controller starts.
-/

namespace NodeFeatureOperator

namespace Watch

/-- The number of items of a page. -/
def pageSize : Nat := 500

/-- The parameter that asks for a page. -/
def page : String × String := ("limit", toString pageSize)

/-- The parameter that selects the objects with the operator's label. -/
def managed : String × String :=
  ("labelSelector", managedByLabel ++ "=" ++ managedByValue)

/-- The targets of the first requests, before they are checked. -/
def firstTargets (ns : Option String) : List String :=
  (Endpoint.resources ns ++ "?" ++ Text.parameters [page]) ::
    ResourceKind.all.map fun kind =>
      Endpoint.objects kind ns ++ "?" ++ Text.parameters [managed, page]

/-- The requests by which the controller starts, in a namespace or in all of them. A collection
whose path cannot stand in a target is never asked for. -/
def firstRequests (ns : Option String) : List Http.Request :=
  (firstTargets ns).filterMap fun target =>
    match Http.Target.check target with
    | .ok checked => some { method := .get, target := checked }
    | .error _ => none

end Watch

end NodeFeatureOperator
