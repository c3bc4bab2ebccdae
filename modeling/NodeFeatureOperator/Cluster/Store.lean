import NodeFeatureOperator.Cluster.Program
import NodeFeatureOperator.Table

/-!
# A store of resources and objects

The cluster reduced to what its interface shows of it: what was last written under each key, and a
counter that gives every write a version of its own. A write made from an outdated version is
refused; a deletion takes effect at once.

## Main definitions

* `Store`: the data.
* `Store.respond`: how the store answers each call.
-/

namespace NodeFeatureOperator

/-- The place of a NodeFeatureDiscovery. -/
structure ResourceKey where
  ns : String
  name : String
deriving DecidableEq, Repr, Inhabited

/-- The place of a managed object. -/
structure ObjectKey where
  kind : ResourceKind
  ns : String
  name : String
deriving DecidableEq, Repr, Inhabited

/-- The place that a NodeFeatureDiscovery names. -/
def NodeFeatureDiscovery.key (n : NodeFeatureDiscovery) : ResourceKey := ⟨n.ns, n.name⟩

/-- The place that an object names. -/
def ManagedObject.key (o : ManagedObject) : ObjectKey := ⟨o.kind, o.ns, o.name⟩

/-- The same metadata with another version. -/
def Metadata.withVersion (version : String) (m : Metadata) : Metadata :=
  { m with resourceVersion := some version }

/-- The same resource with another version. -/
def NodeFeatureDiscovery.withVersion (version : String) (n : NodeFeatureDiscovery) :
    NodeFeatureDiscovery :=
  { n with metadata := n.metadata.withVersion version }

/-- The same object with another version. -/
def ManagedObject.withVersion (version : String) (o : ManagedObject) : ManagedObject :=
  { o with metadata := o.metadata.withVersion version }

/-- What is stored, and how many writes there have been. -/
structure Store where
  revision : Nat := 0
  resources : Table ResourceKey NodeFeatureDiscovery := []
  objects : Table ObjectKey ManagedObject := []
deriving DecidableEq, Repr, Inhabited

namespace Store

/-- The refusal with a code and a reason, which is the message too. -/
def refusal (code : Nat) (reason : String) : Failure :=
  .refused { status := "Failure", message := reason, reason := reason, code := code }

/-- There is no such object. -/
def notFound : Failure := refusal 404 "NotFound"

/-- The object has changed since it was read. -/
def conflict : Failure := refusal 409 "Conflict"

/-- There is such an object already. -/
def alreadyExists : Failure := refusal 409 "AlreadyExists"

/-- The version that the next write gets. -/
def nextVersion (s : Store) : String := toString (s.revision + 1)

/-- The resource under a key. -/
def resource? (key : ResourceKey) (s : Store) : Option NodeFeatureDiscovery :=
  Table.find? key s.resources

/-- The object under a key. -/
def object? (key : ObjectKey) (s : Store) : Option ManagedObject := Table.find? key s.objects

/-- Stores a resource under a key with a new version. -/
def putResource (key : ResourceKey) (n : NodeFeatureDiscovery) (s : Store) : Store :=
  { s with
    revision := s.revision + 1
    resources := Table.insert key (n.withVersion s.nextVersion) s.resources }

/-- Stores an object under a key with a new version. -/
def putObject (key : ObjectKey) (o : ManagedObject) (s : Store) : Store :=
  { s with
    revision := s.revision + 1
    objects := Table.insert key (o.withVersion s.nextVersion) s.objects }

/-- Drops the object under a key. -/
def dropObject (key : ObjectKey) (s : Store) : Store :=
  { s with objects := Table.erase key s.objects }

/-- Whether a resource is only there until its finalizers are gone, and they are. -/
def isReleased (n : NodeFeatureDiscovery) : Bool :=
  n.isDeleting && (n.metadata.finalizers.getD []).isEmpty

/-- Replaces finalizers and desired state of the stored resource. If that releases a resource that
is being deleted, it disappears. -/
def updateResource (n : NodeFeatureDiscovery) (s : Store) :
    Except Failure NodeFeatureDiscovery × Store :=
  match s.resource? n.key with
  | none => (.error notFound, s)
  | some stored =>
    if stored.metadata.resourceVersion = n.metadata.resourceVersion then
      let metadata := { stored.metadata with finalizers := n.metadata.finalizers }
      let updated := { stored with metadata := metadata, spec := n.spec }
      let after := s.putResource n.key updated
      let answer := updated.withVersion s.nextVersion
      if isReleased updated then
        (.ok answer, { after with resources := Table.erase n.key after.resources })
      else (.ok answer, after)
    else (.error conflict, s)

/-- Replaces the conditions of the stored resource. -/
def patchStatus (key : ResourceKey) (conditions : List Condition) (s : Store) :
    Except Failure Unit × Store :=
  match s.resource? key with
  | none => (.error notFound, s)
  | some stored => (.ok (), s.putResource key { stored with status := some conditions })

/-- Stores a new object. -/
def create (o : ManagedObject) (s : Store) : Except Failure Unit × Store :=
  match s.object? o.key with
  | some _ => (.error alreadyExists, s)
  | none => (.ok (), s.putObject o.key o)

/-- Replaces an object by one that was made from its current version. -/
def update (o : ManagedObject) (s : Store) : Except Failure Unit × Store :=
  match s.object? o.key with
  | none => (.error notFound, s)
  | some stored =>
    if stored.metadata.resourceVersion = o.metadata.resourceVersion then
      (.ok (), s.putObject o.key o)
    else (.error conflict, s)

/-- How the store answers a call. -/
def respond : Program.Responder Store
  | .getResource name ns, s => (.ok (s.resource? ⟨ns, name⟩), s)
  | .updateResource n, s => s.updateResource n
  | .patchStatus name ns conditions, s => s.patchStatus ⟨ns, name⟩ conditions
  | .get kind name ns, s => (.ok (s.object? ⟨kind, ns, name⟩), s)
  | .create o, s => s.create o
  | .update o, s => s.update o
  | .delete kind name ns, s => (.ok (), s.dropObject ⟨kind, ns, name⟩)

end Store

end NodeFeatureOperator
