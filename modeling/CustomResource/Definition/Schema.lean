import CustomResource.Json.Printer
import CustomResource.Resource.Object

/-!
# Schemas

What the apiserver checks in every object of a kind before it stores it. The schema of a kind
follows from the fields of its spec and of the status.

## Main definitions

* `Schema`: the schemas, with their JSON form `Schema.encode`.
* `Kind.schema`: the schema of the objects of a kind.
-/

namespace CustomResource

/-- What a schema says beside the type: a title, a description, a default, and whether null is
accepted. -/
structure Schema.Notes where
  title : Option String := none
  description : Option String := none
  default : Option Json := none
  nullable : Bool := false
  deriving Repr, Inhabited

/-- A schema. Properties and required names are in the order of the names. -/
inductive Schema where
  | string (notes : Schema.Notes)
  | boolean (notes : Schema.Notes)
  | int32 (notes : Schema.Notes)
  | array (notes : Schema.Notes) (items : Schema)
  | object (notes : Schema.Notes) (properties : List (String × Schema)) (required : List String)
  deriving Repr, Inhabited

namespace Schema

/-- The members of a schema in the order of their names. -/
def members (n : Notes) (type : String) (format items properties required : Option Json) :
    List (String × Json) :=
  Json.optional "default" n.default ++
  Json.optional "description" (n.description.map .string) ++
  Json.optional "format" format ++
  Json.optional "items" items ++
  Json.optional "nullable" (if n.nullable then some (.bool true) else none) ++
  Json.optional "properties" properties ++
  Json.optional "required" required ++
  Json.optional "title" (n.title.map .string) ++
  [("type", .string type)]

mutual

/-- A schema as JSON. -/
def encode : Schema → Json
  | .string n => .object (members n "string" none none none none)
  | .boolean n => .object (members n "boolean" none none none none)
  | .int32 n => .object (members n "integer" (some (.string "int32")) none none none)
  | .array n items => .object (members n "array" none (some items.encode) none none)
  | .object n properties required =>
    .object (members n "object" none none (some (.object (encodeProperties properties)))
      (if required.isEmpty then none else some (Json.ofStrings required)))

/-- The properties of a schema as JSON. -/
def encodeProperties : List (String × Schema) → List (String × Json)
  | [] => []
  | (name, schema) :: rest => (name, schema.encode) :: encodeProperties rest

end

/-- The schema of a status. Both fields have defaults, and the whole may be null. -/
def status : Schema :=
  .object
    { description := some "The `status` block of every kind.", nullable := true }
    [ ("message", .string { default := some (.string Status.initial.message) }),
      ("state", .string { default := some Status.initial.state.encode }) ]
    []

/-- The schema of a text and a flag. -/
def sample (description : String) : Schema :=
  .object { description := some description }
    [("bar", .boolean {}), ("foo", .string {})]
    ["bar", "foo"]

/-- The schema of a set of pods. -/
def podSet (description : String) : Schema :=
  .object { description := some description }
    [ ("current",
        .int32 { description := some "Pods currently running.", default := some (.int 0) }),
      ("desired", .int32 { description := some "Desired pod count." }),
      ("podList",
        .array { description := some "Names of the current pods.", default := some (.array []) }
          (.string {})) ]
    ["desired"]

end Schema

namespace Kind

/-- The schema of the spec of a kind. -/
def specSchema : Kind → Schema
  | .example => Schema.sample "Desired state of an [`Example`]."
  | .test => Schema.sample "Desired state of a [`Test`]."
  | .jinghzhu => Schema.podSet "Desired state of a [`Jinghzhu`]: a tracked set of pods."

/-- The schema of the objects of a kind. Only the spec is required. -/
def schema (k : Kind) : Schema :=
  .object
    { title := some k.name
      description := some
        ("Auto-generated derived type for " ++ k.name ++ "Spec via `CustomResource`") }
    [("spec", k.specSchema), ("status", Schema.status)]
    ["spec"]

end Kind

end CustomResource
