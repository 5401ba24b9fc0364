import CustomResource.Decode.Shape
import CustomResource.Resource.Metadata

/-!
# Namespaces

The part of the cluster in which instances live, as the apiserver shows it. Beside its metadata it
is only passed on.

## Main definitions

* `Namespace`: a namespace, with `decode` and `encode`.
* `Namespace.named`: the namespace that has nothing but a name.
-/

namespace CustomResource

/-- A namespace. -/
structure Namespace where
  metadata : Metadata
  spec : Option Json := none
  status : Option Json := none
  deriving Repr, Inhabited

namespace Namespace

/-- The version of namespaces. -/
def apiVersion : String := "v1"

/-- The kind of namespaces. -/
def kindName : String := "Namespace"

/-- The shape of the spec of a namespace. -/
def specShape : Shape :=
  .record "NamespaceSpec" [Shape.field "finalizers" (.list .text)]

/-- The shape of the status of a namespace. -/
def statusShape : Shape :=
  .record "NamespaceStatus"
    [ Shape.field "conditions" (.list (.record "NamespaceCondition"
        [ Shape.field "lastTransitionTime" .timestamp,
          Shape.field "message" .text,
          Shape.field "reason" .text,
          Shape.requiredText "status",
          Shape.requiredText "type" ])),
      Shape.field "phase" .text ]

/-- The fields of a namespace. -/
inductive Field where
  | apiVersion
  | kind
  | metadata
  | spec
  | status
  deriving DecidableEq, Repr

/-- The description of a namespace as a record. Every field may be missing, but a version or kind
that is given has to be that of namespaces. -/
def record : Record Field Namespace where
  title := kindName
  fields := [.apiVersion, .kind, .metadata, .spec, .status]
  name
    | .apiVersion => "apiVersion"
    | .kind => "kind"
    | .metadata => "metadata"
    | .spec => "spec"
    | .status => "status"
  Value
    | .apiVersion => Json
    | .kind => Json
    | .metadata => Option Metadata
    | .spec => Option Json
    | .status => Option Json
  read
    | .apiVersion => (Shape.constant apiVersion).decode
    | .kind => (Shape.constant kindName).decode
    | .metadata => Decoder.optional Metadata.decode
    | .spec => Decoder.optional specShape.decode
    | .status => Decoder.optional statusShape.decode
  mayEnd _ := true
  build slots := .ok
    { metadata := (slots .metadata).join.getD {}
      spec := (slots .spec).join
      status := (slots .status).join }

/-- Reads a namespace. -/
def decode : Decoder Namespace := record.lenient

/-- A namespace as JSON. -/
def encode (n : Namespace) : Json :=
  .object <|
    [("apiVersion", .string apiVersion), ("kind", .string kindName),
      ("metadata", n.metadata.encode)] ++
    Json.optional "spec" n.spec ++
    Json.optional "status" n.status

/-- The namespace that has nothing but a name. -/
def named (name : String) : Namespace where
  metadata := .named name

end Namespace

end CustomResource
