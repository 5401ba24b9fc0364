import CustomResource.Api.Deletion
import CustomResource.Api.ObjectList
import CustomResource.Program.Poll
import CustomResource.Resource.Object

/-!
# Instances

Working with the instances of a kind in a namespace. Spec and status are changed by patches of their
own, so that a change of one does not touch the other.

## Main definitions

* `Instances`: the instances of a kind in a namespace.
* `Instances.create`, `get`, `list`, `update`, `patch`, `delete`: the operations on them.
* `Instances.patchSpec`, `patchStatus`, `updateSpecAndStatus`: changes of spec and status.
* `Instances.waitProcessed`: waits until the controller has processed an instance.
-/

namespace CustomResource

/-- The instances of a kind in a namespace. -/
structure Instances (k : Kind) where
  scope : String
  deriving DecidableEq, Repr, Inhabited

/-- The document that, merged into an object, sets its status. -/
def Status.patchBody (s : Status) : Json :=
  .object [("status", s.encode.sorted)]

/-- The operations that replace the spec of an object. -/
def Spec.patchOps (k : Kind) (spec : k.Spec) : List Json.PatchOp :=
  [.replace "/spec" (Spec.encode k spec).sorted]

namespace Instances

variable {k : Kind}

/-- Where the instances are. -/
def endpoint (c : Instances k) : Endpoint := .instances k c.scope

/-- Sends a request that is answered by an instance. -/
def request (r : Request) : Task (Object k) := Task.request (Object.decode k) r

/-- Creates an instance. -/
def create (c : Instances k) (o : Object k) : Task (Object k) :=
  request (.create c.endpoint o.encode)

/-- Reads an instance. -/
def get (c : Instances k) (name : String) : Task (Object k) :=
  request (.read c.endpoint name)

/-- Replaces an instance by an object, which has to have a name. -/
def update (c : Instances k) (o : Object k) : Task (Object k) :=
  match o.metadata.name with
  | some name => request (.replace c.endpoint name o.encode)
  | none => throw .missingName

/-- Changes an instance. -/
def patch (c : Instances k) (name : String) (p : Patch) : Task (Object k) :=
  request (.patch c.endpoint name p)

/-- Replaces the spec of an instance. -/
def patchSpec (c : Instances k) (name : String) (spec : k.Spec) : Task (Object k) :=
  c.patch name (.json (Spec.patchOps k spec))

/-- Sets the status of an instance. -/
def patchStatus (c : Instances k) (name : String) (status : Status) : Task (Object k) :=
  request (.patchStatus c.endpoint name (.merge status.patchBody))

/-- Replaces the spec of an instance and then sets its status. -/
def patchSpecAndStatus (c : Instances k) (name : String) (spec : k.Spec) (status : Status) :
    Task (Object k) := do
  let _ ← c.patchSpec name spec
  c.patchStatus name status

/-- Reads an instance, replaces it by one with another spec and status, and then sets its status,
which the replacement does not write. -/
def updateSpecAndStatus (c : Instances k) (name : String) (spec : k.Spec) (status : Status) :
    Task (Object k) := do
  let o ← c.get name
  let _ ← c.update { o with spec, status := some status }
  c.patchStatus name status

/-- Deletes an instance. -/
def delete (c : Instances k) (name : String) (params : DeleteParams) : Task Unit :=
  Task.call (.delete c.endpoint name params.encode) (Deletion.decode (Object.decode k))

/-- Lists instances. -/
def list (c : Instances k) (params : ListParams) : Task (ObjectList (Object k)) :=
  match params.check with
  | .error e => throw (.request e)
  | .ok () =>
    Task.request (ObjectList.decode (Object.decode k)) (.list c.endpoint params.query)

/-- Waits until the controller has processed an instance. -/
def waitProcessed (c : Instances k) (name : String) (p : Poll) : Task (Object k) := do
  Program.log .info ("waiting for " ++ k.name ++ " " ++ name ++ " to be processed")
  let found ← p.untilSome fun _ => do
    let o ← c.get name
    return if o.state? = some .processed then some o else none
  match found with
  | some o => return o
  | none => throw (.notProcessed name p.timeout)

end Instances

end CustomResource
