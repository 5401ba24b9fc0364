import CustomResource.Definition.Schema
import CustomResource.Definition.Status

/-!
# Definitions of kinds

A definition tells the apiserver of a kind. Its spec is passed on as JSON.

## Main definitions

* `Definition`: a definition, with `decode` and `encode`.
* `Kind.definition`: the definition of a kind.
-/

namespace CustomResource

/-! ### Definitions -/

/-- The definition of a kind of resource. -/
structure Definition where
  metadata : Metadata
  spec : Json
  status : Option Definition.Status := none
  deriving Repr, Inhabited

namespace Definition

/-- The group and version of definitions. -/
def apiVersion : String := "apiextensions.k8s.io/v1"

/-- The kind of definitions. -/
def kindName : String := "CustomResourceDefinition"

/-- The name of definitions in paths. -/
def plural : String := "customresourcedefinitions"

/-- The fields of a definition. -/
inductive Field where
  | apiVersion
  | kind
  | metadata
  | spec
  | status
  deriving DecidableEq, Repr

/-- The description of a definition as a record. Every field may be missing, but a group, version or
kind that is given has to be that of definitions. -/
def record : Record Field Definition where
  title := kindName
  fields := [.apiVersion, .kind, .metadata, .spec, .status]
  name
    | .apiVersion => "apiVersion"
    | .kind => "kind"
    | .metadata => "metadata"
    | .spec => "spec"
    | .status => "status"
  Value
    | .apiVersion => Json
    | .kind => Json
    | .metadata => Option Metadata
    | .spec => Option Json
    | .status => Option Definition.Status
  read
    | .apiVersion => (Shape.constant apiVersion).decode
    | .kind => (Shape.constant kindName).decode
    | .metadata => Decoder.optional Metadata.decode
    | .spec => Decoder.optional specShape.decode
    | .status => Decoder.optional Status.decode
  mayEnd _ := true
  build slots := .ok
    { metadata := (slots .metadata).join.getD {}
      spec := (slots .spec).join.getD specShape.empty
      status := (slots .status).join }

/-- Reads a definition. -/
def decode : Decoder Definition := record.lenient

/-- A definition as JSON. -/
def encode (d : Definition) : Json :=
  .object <|
    [("apiVersion", .string apiVersion), ("kind", .string kindName),
      ("metadata", d.metadata.encode), ("spec", d.spec)] ++
    Json.optional "status" (d.status.map Status.encode)

/-- The name of a definition. -/
def name (d : Definition) : String := d.metadata.nameOrPrefix

end Definition

/-! ### The definition of a kind -/

namespace Kind

/-- A column that lists of resources show: its name, type and place. -/
def column (name type path : String) : Json :=
  .object [("jsonPath", .string path), ("name", .string name), ("type", .string type)]

/-- The columns that lists of a kind show. -/
def columns : Kind → List Json
  | .example => []
  | .test => []
  | .jinghzhu =>
    [column "Desired" "integer" ".spec.desired", column "State" "string" ".status.state"]

/-- The names of a kind as a definition gives them. -/
def names (k : Kind) : Json :=
  .object
    [ ("categories", .array []),
      ("kind", .string k.name),
      ("plural", .string k.plural),
      ("shortNames", Json.ofStrings k.shortNames),
      ("singular", .string k.singular) ]

/-- The one version of a kind, with its columns, its schema, and a status of its own. -/
def versionSpec (k : Kind) : Json :=
  .object
    [ ("additionalPrinterColumns", .array k.columns),
      ("name", .string version),
      ("schema", .object [("openAPIV3Schema", k.schema.encode)]),
      ("served", .bool true),
      ("storage", .bool true),
      ("subresources", .object [("status", .object [])]) ]

/-- The definition of a kind. -/
def definition (k : Kind) : Definition where
  metadata := .named k.definitionName
  spec := .object
    [ ("group", .string k.group),
      ("names", k.names),
      ("scope", .string "Namespaced"),
      ("versions", .array [k.versionSpec]) ]

end Kind

end CustomResource
