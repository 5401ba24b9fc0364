import CustomResource.Resource.Spec
import CustomResource.Resource.Status

/-!
# Objects

A resource as the apiserver stores it: metadata, spec and status. The group, version and kind of an
object follow from its type; they are written, and not looked at when an object is read.

## Main definitions

* `Object`: the objects of a kind, with `decode` and `encode`.
* `Object.decodeAside`: how an object is read that has been set aside.
* `Object.state?`, `Object.needsProcessing`: what the status says, and whether the controller acts.
* `Object.describe`: the summary that lists show.
* `Object.key`: the namespace and name.
-/

namespace CustomResource

/-- A resource of a kind. -/
structure Object (k : Kind) where
  metadata : Metadata
  spec : k.Spec
  status : Option Status := none
  deriving Repr, Inhabited

namespace Object

variable {k : Kind}

/-- The fields of an object. -/
inductive Field where
  | metadata
  | spec
  | status
  deriving DecidableEq, Repr

/-- The names of the fields of an object. -/
def Field.name : Field → String
  | .metadata => "metadata"
  | .spec => "spec"
  | .status => "status"

/-- The description of an object as a record, from how its status is read. The status may be null or
missing, but no field may be cut off at the end of an array. -/
def record (k : Kind) (status : Decoder Status) : Record Field (Object k) where
  title := "struct " ++ k.name
  fields := [.metadata, .spec, .status]
  name := Field.name
  Value
    | .metadata => Metadata
    | .spec => k.Spec
    | .status => Option Status
  read
    | .metadata => Metadata.decode
    | .spec => Spec.decode k
    | .status => Decoder.optional status
  mayEnd _ := false
  build slots := do
    let metadata ← slots.require Field.name .metadata
    let spec ← slots.require Field.name .spec
    return { metadata, spec, status := (slots .status).join }

/-- Reads an object. -/
def decode (k : Kind) : Decoder (Object k) := (record k Status.decode).strict

/-- Reads an object that has been set aside. -/
def decodeAside (k : Kind) : Decoder (Object k) := (record k Status.decodeAside).strict

/-- An object as JSON. -/
def encode (o : Object k) : Json :=
  .object <|
    [("apiVersion", .string k.apiVersion), ("kind", .string k.name),
      ("metadata", o.metadata.encode), ("spec", Spec.encode k o.spec)] ++
    Json.optional "status" (o.status.map Status.encode)

/-- An object that has nothing but a name and a spec. -/
def named (name : String) (spec : k.Spec) : Object k :=
  { metadata := .named name, spec }

/-- The name, or else the beginning of a name that is to be generated. -/
def name (o : Object k) : String := o.metadata.nameOrPrefix

/-- The namespace and name. -/
def key (o : Object k) : String := o.metadata.key

/-- The version of the object, or nothing where it has none. -/
def version (o : Object k) : String := o.metadata.resourceVersion.getD ""

/-- The state that the status reports. -/
def state? (o : Object k) : Option State := o.status.map (·.state)

/-- The state, where a missing status counts as just created. -/
def state (o : Object k) : State := o.state?.getD Status.initial.state

/-- Whether the controller should move the object to the processed state. -/
def needsProcessing (o : Object k) : Bool :=
  match o.state? with
  | none => true
  | some .created => true
  | some .pending => true
  | some .processed => false
  | some .unknown => false

/-- A line for each field of a set of pods. -/
def podSetSummary (m : Metadata) (spec : PodSetSpec) (status : Status) : String :=
  "\tName = " ++ m.nameOrPrefix ++
  "\n\tResource Version = " ++ m.resourceVersion.getD "" ++
  "\n\tDesired = " ++ Text.ofInt spec.desired.toInt ++
  "\n\tCurrent = " ++ Text.ofInt spec.current.toInt ++
  "\n\tPodList = " ++ ", ".intercalate spec.podList ++
  "\n\tState = " ++ status.state.name ++
  "\n\tMessage = " ++ status.message

/-- The summary of an object: its name and state, or all that a set of pods consists of. -/
def describe : {k : Kind} → Object k → String
  | .example, o => o.name ++ " (" ++ o.state.name ++ ")"
  | .test, o => o.name ++ " (" ++ o.state.name ++ ")"
  | .jinghzhu, o => podSetSummary o.metadata o.spec (o.status.getD Status.initial)

/-- The object with another status. -/
def withStatus (o : Object k) (status : Status) : Object k := { o with status := some status }

end Object

end CustomResource
