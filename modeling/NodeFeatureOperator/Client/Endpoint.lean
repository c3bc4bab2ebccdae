import NodeFeatureOperator.Cluster.Call
import NodeFeatureOperator.Http.Message
import NodeFeatureOperator.Http.Target
import NodeFeatureOperator.Text.FormEncoded

/-!
# Endpoints of the cluster interface

Where the collections and their items are found, and the request that makes each call.

## Main definitions

* `Endpoint.collection`, `Endpoint.item`: paths.
* `Call.request`: the request of a call, or why it cannot be made.
-/

namespace NodeFeatureOperator

namespace Endpoint

/-- The name under which the operator manages fields. -/
def fieldManager : String := "nfd-operator"

/-- The root of an interface group: the core group has a root of its own. -/
def root (apiVersion : String) : String :=
  if apiVersion.toList.contains '/' then "/apis/" ++ apiVersion ++ "/"
  else "/api/" ++ apiVersion ++ "/"

/-- The path of a collection, in a namespace or in all of them. -/
def collection (apiVersion plural : String) : Option String → String
  | some ns => root apiVersion ++ "namespaces/" ++ ns ++ "/" ++ plural
  | none => root apiVersion ++ plural

/-- The collection of NodeFeatureDiscovery resources. -/
def resources (ns : Option String) : String :=
  collection NodeFeatureDiscovery.apiVersion NodeFeatureDiscovery.plural ns

/-- The collection of the managed objects of a kind. -/
def objects (kind : ResourceKind) (ns : Option String) : String :=
  collection kind.apiVersion kind.plural ns

/-- The path of an item of a collection. -/
def item (collection name : String) : String := collection ++ "/" ++ name

end Endpoint

namespace Call

/-- The collection that a call is about. -/
def collection (c : Call) : String :=
  match c.kind? with
  | some kind => Endpoint.objects kind (some c.ns)
  | none => Endpoint.resources (some c.ns)

/-- Whether the target of a call names an item; a creation goes to the collection. -/
def namesItem (c : Call) : Bool := c.verb != .create

/-- The type of plain documents. -/
def plainJson : String := "application/json"

/-- The target of a call, before it is checked. -/
def target (c : Call) : String :=
  let item := Endpoint.item c.collection c.name
  match c.verb with
  | .getResource | .get => item
  | .updateResource | .update | .delete => item ++ "?"
  | .create => c.collection ++ "?"
  | .patchStatus => item ++ "/status?" ++ Text.parameters [("fieldManager", Endpoint.fieldManager)]

/-- The method of a call. -/
def method (c : Call) : Http.Method :=
  match c.verb with
  | .getResource | .get => .get
  | .updateResource | .update => .put
  | .delete => .delete
  | .create => .post
  | .patchStatus => .patch

/-- What a call sends. A status is merged into the stored one; a deleted object takes what it owns
with it in the background. -/
def payload? : Call → Option Http.Payload
  | .getResource _ _ => none
  | .get _ _ _ => none
  | .updateResource n => some ⟨plainJson, n.toJson⟩
  | .create o => some ⟨plainJson, o.toJson⟩
  | .update o => some ⟨plainJson, o.toJson⟩
  | .delete _ _ _ => some ⟨plainJson, .obj [("propagationPolicy", .str "Background")]⟩
  | .patchStatus _ _ conditions =>
    some ⟨"application/merge-patch+json",
      .obj [("status", NodeFeatureDiscovery.statusToJson conditions)]⟩

/-- The request of a call. An item without a name has none, nor has one whose name cannot stand in
a target. -/
def request (c : Call) : Except Breakdown Http.Request :=
  if c.namesItem ∧ c.name = "" then
    .error (.invalidRequest "failed to validate request: A non-empty name is required")
  else
    match Http.Target.check c.target with
    | .error e => .error (.invalidRequest ("failed to build request: " ++ e.text))
    | .ok target => .ok { method := c.method, target := target, payload := c.payload? }

end Call

end NodeFeatureOperator
