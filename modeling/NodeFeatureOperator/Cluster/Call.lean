import NodeFeatureOperator.Failure
import NodeFeatureOperator.Managed.Object
import NodeFeatureOperator.Resource.NodeFeatureDiscovery

/-!
# Calls of the cluster interface

Everything the operator asks of the cluster. A read answers with nothing for an object that does
not exist, a deletion of such an object succeeds, and a write carries the version of the object it
was made from.

## Main definitions

* `Call`: the calls, and `Call.Answer`: what each is answered with.
* `Call.text`: the line by which a log shows a call.
-/

namespace NodeFeatureOperator

/-- A call of the cluster interface. -/
inductive Call where
  /-- Reads a NodeFeatureDiscovery. -/
  | getResource (name ns : String)
  /-- Replaces metadata and desired state of a NodeFeatureDiscovery. -/
  | updateResource (resource : NodeFeatureDiscovery)
  /-- Replaces the conditions of a NodeFeatureDiscovery. -/
  | patchStatus (name ns : String) (conditions : List Condition)
  /-- Reads a managed object. -/
  | get (kind : ResourceKind) (name ns : String)
  /-- Creates a managed object. -/
  | create (object : ManagedObject)
  /-- Replaces a managed object. -/
  | update (object : ManagedObject)
  /-- Deletes a managed object. -/
  | delete (kind : ResourceKind) (name ns : String)
deriving DecidableEq, Repr, Inhabited

namespace Call

/-- What a call that succeeds is answered with. -/
abbrev Answer : Call → Type
  | .getResource _ _ => Option NodeFeatureDiscovery
  | .updateResource _ => NodeFeatureDiscovery
  | .patchStatus _ _ _ => Unit
  | .get _ _ _ => Option ManagedObject
  | .create _ => Unit
  | .update _ => Unit
  | .delete _ _ _ => Unit

/-- The sorts of calls. -/
inductive Verb where
  | getResource
  | updateResource
  | patchStatus
  | get
  | create
  | update
  | delete
deriving DecidableEq, Repr, Inhabited

/-- The name of a sort of calls. -/
def Verb.text : Verb → String
  | .getResource => "get_nfd"
  | .updateResource => "update_nfd"
  | .patchStatus => "patch_nfd_status"
  | .get => "get"
  | .create => "create"
  | .update => "update"
  | .delete => "delete"

/-- The sort of a call. -/
def verb : Call → Verb
  | .getResource _ _ => .getResource
  | .updateResource _ => .updateResource
  | .patchStatus _ _ _ => .patchStatus
  | .get _ _ _ => .get
  | .create _ => .create
  | .update _ => .update
  | .delete _ _ _ => .delete

/-- The kind of managed object that a call is about. -/
def kind? : Call → Option ResourceKind
  | .get kind _ _ => some kind
  | .create o => some o.kind
  | .update o => some o.kind
  | .delete kind _ _ => some kind
  | _ => none

/-- The name of the object that a call is about. -/
def name : Call → String
  | .getResource name _ => name
  | .updateResource n => n.name
  | .patchStatus name _ _ => name
  | .get _ name _ => name
  | .create o => o.name
  | .update o => o.name
  | .delete _ name _ => name

/-- The namespace of the object that a call is about. -/
def ns : Call → String
  | .getResource _ ns => ns
  | .updateResource n => n.ns
  | .patchStatus _ ns _ => ns
  | .get _ _ ns => ns
  | .create o => o.ns
  | .update o => o.ns
  | .delete _ _ ns => ns

/-- The object that a call writes. -/
def written? : Call → Option ManagedObject
  | .create o => some o
  | .update o => some o
  | _ => none

/-- The line of a call in a log: sort, kind, object, and the digest of what it writes. -/
def text (c : Call) : String :=
  let kind := match c.kind? with
    | some k => " " ++ k.text
    | none => ""
  let hash := match c.written? with
    | some o => " hash=" ++ o.contentHash
    | none => ""
  c.verb.text ++ kind ++ " " ++ c.ns ++ "/" ++ c.name ++ hash

end Call

end NodeFeatureOperator
