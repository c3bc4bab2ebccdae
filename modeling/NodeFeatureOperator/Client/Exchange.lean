import NodeFeatureOperator.Client.Endpoint
import NodeFeatureOperator.Client.StatusDocument
import NodeFeatureOperator.Cluster.Program

/-!
# Exchanges with the cluster interface

What a response says about the call that it answers, and runs against a service that gives prepared
responses.

A read takes a refusal for the absence of the object if its reason says so; a deletion takes one
for success if its code says so. The objection to a document that does not read is kept, for the
conditions of a resource show its words.

## Main definitions

* `Http.Response.decoded`: the document in a response, or what is wrong with it.
* `Call.interpret`: the answer that a response gives to a call.
* `Http.Payload.received?`: the document that a service reads from what is sent.
* `Service`: prepared responses and the requests made so far.
* `Service.respond`: how the service answers each call.
-/

namespace NodeFeatureOperator

/-- The refusal that an error response expresses. One whose document does not read is described by
the code of the response and by its text. -/
def Http.Response.refusal (r : Http.Response) : Refusal :=
  match Refusal.ofText? r.body with
  | some refusal => refusal
  | none =>
    { status := Http.statusLine r.code
      message := Text.quoted r.body
      reason := "Failed to parse error data"
      code := r.code }

/-- The reason of a refusal by which a read finds nothing. -/
def Refusal.notFoundReason : String := "NotFound"

/-- Reads a document of the type asked for. `objection?` says what is objected to in one that does
not read. -/
def Http.Response.decoded {α : Type} (read : String → Option α)
    (objection? : String → Option Json.Objection) (r : Http.Response) : Except Failure α :=
  if r.isError then .error (.refused r.refusal)
  else
    match read r.body with
    | some a => .ok a
    | none => .error (.broken (.undecodable (objection? r.body)))

/-- Reads a deployment's resource. -/
def Http.Response.resource (r : Http.Response) : Except Failure NodeFeatureDiscovery :=
  r.decoded NodeFeatureDiscovery.ofText? fun _ => none

/-- Reads an object of a kind. -/
def Http.Response.object (kind : ResourceKind) (r : Http.Response) : Except Failure ManagedObject :=
  r.decoded (ManagedObject.ofText? kind) (ManagedObject.objection? kind)

/-- The outcome of a read: nothing was found if the reason of a refusal says so. -/
def Call.found {α : Type} : Except Failure α → Except Failure (Option α)
  | .ok a => .ok (some a)
  | .error (.refused refusal) =>
    if refusal.reason = Refusal.notFoundReason then .ok none else .error (.refused refusal)
  | .error f => .error f

/-- Reads what a deletion is answered with: the document of an outcome, or the object as it was.
The kind that the document names says which. -/
def ManagedObject.deletedOfText? (kind : ResourceKind) (text : String) : Option Unit := do
  let j ← Json.parse? text
  if j.field? "kind" = some (.str "Status") then
    if StatusDocument.isValid text then some () else none
  else
    let _ ← ofText? kind text
    pure ()

/-- The outcome of a deletion: there was nothing to delete if the code of a refusal says so. -/
def Http.Response.deleted (kind : ResourceKind) (r : Http.Response) : Except Failure Unit :=
  match r.decoded (ManagedObject.deletedOfText? kind) fun _ => none with
  | .error (.refused refusal) => if refusal.code = 404 then .ok () else .error (.refused refusal)
  | outcome => outcome

/-- The answer that a response gives to a call. -/
def Call.interpret : (c : Call) → Http.Response → Except Failure c.Answer
  | .getResource _ _, r => found r.resource
  | .updateResource _, r => r.resource
  | .patchStatus _ _ _, r => r.resource.map fun _ => ()
  | .get kind _ _, r => found (r.object kind)
  | .create o, r => (r.object o.kind).map fun _ => ()
  | .update o, r => (r.object o.kind).map fun _ => ()
  | .delete kind _ _, r => r.deleted kind

/-- The document that a service reads from the text that is sent to it. Reading rounds twice, the
significand and its product with the power of ten, so that a double may come out next to the one
that was sent. -/
def Http.Payload.received? (p : Http.Payload) : Option Json := Json.parse? p.document.text

/-- A service that gives prepared responses, one to each request. -/
structure Service where
  prepared : List Http.Response
  /-- The requests, the latest first. -/
  received : List Http.Request := []
deriving Repr, Inhabited

namespace Service

/-- Takes a request and gives the next response. -/
def take (request : Http.Request) (s : Service) : Except Breakdown Http.Response × Service :=
  let received := request :: s.received
  match s.prepared with
  | [] => (.error (.noAnswer "no response left"), { s with received := received })
  | r :: rest => (.ok r, ⟨rest, received⟩)

/-- How a call is answered by way of requests. -/
def respond : Program.Responder Service := fun c s =>
  match c.request with
  | .error b => (.error (.broken b), s)
  | .ok request =>
    match s.take request with
    | (.error b, s) => (.error (.broken b), s)
    | (.ok r, s) => (c.interpret r, s)

end Service

end NodeFeatureOperator
