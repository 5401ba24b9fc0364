import CustomResource.Decode.Record

/-!
# Metadata

What the apiserver keeps about every object beside its own content. Every field may be missing, and
null counts as missing.

## Main definitions

* `OwnerReference`, `ManagedFieldsEntry`: the records inside of the metadata.
* `Metadata`: the metadata, with `decode` and `encode`.
* `Metadata.nameOrPrefix`: the name, or else the beginning of a name to be generated.
-/

namespace CustomResource

namespace Json

/-- Strings as an array. -/
def ofStrings (items : List String) : Json :=
  .array (items.map .string)

/-- A map of strings as an object. -/
def ofStringMap (entries : List (String × String)) : Json :=
  .object (entries.map fun e => (e.1, .string e.2))

end Json

namespace Decoder

/-- A list of strings. -/
def strings : Decoder (List String) := list string

/-- A map of strings. -/
def stringMap : Decoder (List (String × String)) := map string

end Decoder

/-! ### Owner references -/

/-- An object that owns another one. -/
structure OwnerReference where
  apiVersion : String
  blockOwnerDeletion : Option Bool
  controller : Option Bool
  kind : String
  name : String
  uid : String
  deriving DecidableEq, Repr, Inhabited

namespace OwnerReference

/-- The fields of an owner reference. -/
inductive Field where
  | apiVersion
  | blockOwnerDeletion
  | controller
  | kind
  | name
  | uid
  deriving DecidableEq, Repr

/-- The description of an owner reference as a record. Texts that are missing are empty. -/
def record : Record Field OwnerReference where
  title := "OwnerReference"
  fields := [.apiVersion, .blockOwnerDeletion, .controller, .kind, .name, .uid]
  name
    | .apiVersion => "apiVersion"
    | .blockOwnerDeletion => "blockOwnerDeletion"
    | .controller => "controller"
    | .kind => "kind"
    | .name => "name"
    | .uid => "uid"
  Value
    | .apiVersion => Option String
    | .blockOwnerDeletion => Option Bool
    | .controller => Option Bool
    | .kind => Option String
    | .name => Option String
    | .uid => Option String
  read
    | .apiVersion => Decoder.optional Decoder.string
    | .blockOwnerDeletion => Decoder.optional Decoder.bool
    | .controller => Decoder.optional Decoder.bool
    | .kind => Decoder.optional Decoder.string
    | .name => Decoder.optional Decoder.string
    | .uid => Decoder.optional Decoder.string
  mayEnd _ := true
  build slots := .ok
    { apiVersion := (slots .apiVersion).join.getD ""
      blockOwnerDeletion := (slots .blockOwnerDeletion).join
      controller := (slots .controller).join
      kind := (slots .kind).join.getD ""
      name := (slots .name).join.getD ""
      uid := (slots .uid).join.getD "" }

/-- Reads an owner reference. -/
def decode : Decoder OwnerReference := record.lenient

/-- An owner reference as JSON. Its texts are always written. -/
def encode (r : OwnerReference) : Json :=
  .object <|
    [("apiVersion", .string r.apiVersion)] ++
    Json.optional "blockOwnerDeletion" (r.blockOwnerDeletion.map .bool) ++
    Json.optional "controller" (r.controller.map .bool) ++
    [("kind", .string r.kind), ("name", .string r.name), ("uid", .string r.uid)]

end OwnerReference

/-! ### Managed fields -/

/-- Which manager owns which fields of an object. -/
structure ManagedFieldsEntry where
  apiVersion : Option String
  fieldsType : Option String
  fieldsV1 : Option Json
  manager : Option String
  operation : Option String
  subresource : Option String
  time : Option Timestamp
  deriving Repr, Inhabited

namespace ManagedFieldsEntry

/-- The fields of an entry. -/
inductive Field where
  | apiVersion
  | fieldsType
  | fieldsV1
  | manager
  | operation
  | subresource
  | time
  deriving DecidableEq, Repr

/-- The description of an entry as a record. -/
def record : Record Field ManagedFieldsEntry where
  title := "ManagedFieldsEntry"
  fields := [.apiVersion, .fieldsType, .fieldsV1, .manager, .operation, .subresource, .time]
  name
    | .apiVersion => "apiVersion"
    | .fieldsType => "fieldsType"
    | .fieldsV1 => "fieldsV1"
    | .manager => "manager"
    | .operation => "operation"
    | .subresource => "subresource"
    | .time => "time"
  Value
    | .apiVersion => Option String
    | .fieldsType => Option String
    | .fieldsV1 => Option Json
    | .manager => Option String
    | .operation => Option String
    | .subresource => Option String
    | .time => Option Timestamp
  read
    | .apiVersion => Decoder.optional Decoder.string
    | .fieldsType => Decoder.optional Decoder.string
    | .fieldsV1 => Decoder.optional Decoder.json
    | .manager => Decoder.optional Decoder.string
    | .operation => Decoder.optional Decoder.string
    | .subresource => Decoder.optional Decoder.string
    | .time => Decoder.optional Decoder.timestamp
  mayEnd _ := true
  build slots := .ok
    { apiVersion := (slots .apiVersion).join
      fieldsType := (slots .fieldsType).join
      fieldsV1 := (slots .fieldsV1).join
      manager := (slots .manager).join
      operation := (slots .operation).join
      subresource := (slots .subresource).join
      time := (slots .time).join }

/-- Reads an entry. -/
def decode : Decoder ManagedFieldsEntry := record.lenient

/-- An entry as JSON. -/
def encode (e : ManagedFieldsEntry) : Json :=
  .object <|
    Json.optional "apiVersion" (e.apiVersion.map .string) ++
    Json.optional "fieldsType" (e.fieldsType.map .string) ++
    Json.optional "fieldsV1" e.fieldsV1 ++
    Json.optional "manager" (e.manager.map .string) ++
    Json.optional "operation" (e.operation.map .string) ++
    Json.optional "subresource" (e.subresource.map .string) ++
    Json.optional "time" (e.time.map fun t => .string t.render)

end ManagedFieldsEntry

/-! ### Metadata -/

/-- The metadata of an object. -/
structure Metadata where
  annotations : Option (List (String × String)) := none
  creationTimestamp : Option Timestamp := none
  deletionGracePeriodSeconds : Option Int64 := none
  deletionTimestamp : Option Timestamp := none
  finalizers : Option (List String) := none
  generateName : Option String := none
  generation : Option Int64 := none
  labels : Option (List (String × String)) := none
  managedFields : Option (List ManagedFieldsEntry) := none
  name : Option String := none
  namespaceName : Option String := none
  ownerReferences : Option (List OwnerReference) := none
  resourceVersion : Option String := none
  selfLink : Option String := none
  uid : Option String := none
  deriving Repr, Inhabited

namespace Metadata

/-- The fields of the metadata. -/
inductive Field where
  | annotations
  | creationTimestamp
  | deletionGracePeriodSeconds
  | deletionTimestamp
  | finalizers
  | generateName
  | generation
  | labels
  | managedFields
  | name
  | namespaceName
  | ownerReferences
  | resourceVersion
  | selfLink
  | uid
  deriving DecidableEq, Repr

/-- The description of the metadata as a record. -/
def record : Record Field Metadata where
  title := "ObjectMeta"
  fields := [.annotations, .creationTimestamp, .deletionGracePeriodSeconds, .deletionTimestamp,
    .finalizers, .generateName, .generation, .labels, .managedFields, .name, .namespaceName,
    .ownerReferences, .resourceVersion, .selfLink, .uid]
  name
    | .annotations => "annotations"
    | .creationTimestamp => "creationTimestamp"
    | .deletionGracePeriodSeconds => "deletionGracePeriodSeconds"
    | .deletionTimestamp => "deletionTimestamp"
    | .finalizers => "finalizers"
    | .generateName => "generateName"
    | .generation => "generation"
    | .labels => "labels"
    | .managedFields => "managedFields"
    | .name => "name"
    | .namespaceName => "namespace"
    | .ownerReferences => "ownerReferences"
    | .resourceVersion => "resourceVersion"
    | .selfLink => "selfLink"
    | .uid => "uid"
  Value
    | .annotations => Option (List (String × String))
    | .creationTimestamp => Option Timestamp
    | .deletionGracePeriodSeconds => Option Int64
    | .deletionTimestamp => Option Timestamp
    | .finalizers => Option (List String)
    | .generateName => Option String
    | .generation => Option Int64
    | .labels => Option (List (String × String))
    | .managedFields => Option (List ManagedFieldsEntry)
    | .name => Option String
    | .namespaceName => Option String
    | .ownerReferences => Option (List OwnerReference)
    | .resourceVersion => Option String
    | .selfLink => Option String
    | .uid => Option String
  read
    | .annotations => Decoder.optional Decoder.stringMap
    | .creationTimestamp => Decoder.optional Decoder.timestamp
    | .deletionGracePeriodSeconds => Decoder.optional Decoder.int64
    | .deletionTimestamp => Decoder.optional Decoder.timestamp
    | .finalizers => Decoder.optional Decoder.strings
    | .generateName => Decoder.optional Decoder.string
    | .generation => Decoder.optional Decoder.int64
    | .labels => Decoder.optional Decoder.stringMap
    | .managedFields => Decoder.optional (Decoder.list ManagedFieldsEntry.decode)
    | .name => Decoder.optional Decoder.string
    | .namespaceName => Decoder.optional Decoder.string
    | .ownerReferences => Decoder.optional (Decoder.list OwnerReference.decode)
    | .resourceVersion => Decoder.optional Decoder.string
    | .selfLink => Decoder.optional Decoder.string
    | .uid => Decoder.optional Decoder.string
  mayEnd _ := true
  build slots := .ok
    { annotations := (slots .annotations).join
      creationTimestamp := (slots .creationTimestamp).join
      deletionGracePeriodSeconds := (slots .deletionGracePeriodSeconds).join
      deletionTimestamp := (slots .deletionTimestamp).join
      finalizers := (slots .finalizers).join
      generateName := (slots .generateName).join
      generation := (slots .generation).join
      labels := (slots .labels).join
      managedFields := (slots .managedFields).join
      name := (slots .name).join
      namespaceName := (slots .namespaceName).join
      ownerReferences := (slots .ownerReferences).join
      resourceVersion := (slots .resourceVersion).join
      selfLink := (slots .selfLink).join
      uid := (slots .uid).join }

/-- Reads metadata. -/
def decode : Decoder Metadata := record.lenient

/-- Metadata as JSON. Only fields that are present are written. -/
def encode (m : Metadata) : Json :=
  .object <|
    Json.optional "annotations" (m.annotations.map Json.ofStringMap) ++
    Json.optional "creationTimestamp" (m.creationTimestamp.map fun t => .string t.render) ++
    Json.optional "deletionGracePeriodSeconds"
      (m.deletionGracePeriodSeconds.map fun n => .int n.toInt) ++
    Json.optional "deletionTimestamp" (m.deletionTimestamp.map fun t => .string t.render) ++
    Json.optional "finalizers" (m.finalizers.map Json.ofStrings) ++
    Json.optional "generateName" (m.generateName.map .string) ++
    Json.optional "generation" (m.generation.map fun n => .int n.toInt) ++
    Json.optional "labels" (m.labels.map Json.ofStringMap) ++
    Json.optional "managedFields"
      (m.managedFields.map fun es => .array (es.map ManagedFieldsEntry.encode)) ++
    Json.optional "name" (m.name.map .string) ++
    Json.optional "namespace" (m.namespaceName.map .string) ++
    Json.optional "ownerReferences"
      (m.ownerReferences.map fun rs => .array (rs.map OwnerReference.encode)) ++
    Json.optional "resourceVersion" (m.resourceVersion.map .string) ++
    Json.optional "selfLink" (m.selfLink.map .string) ++
    Json.optional "uid" (m.uid.map .string)

/-- The metadata of an object that has nothing but a name. -/
def named (name : String) : Metadata := { name := some name }

/-- The name, or else the beginning of a name that is to be generated, or else nothing. -/
def nameOrPrefix (m : Metadata) : String :=
  (m.name.or m.generateName).getD ""

/-- The namespace and the name with a slash between them, or only the name where there is no
namespace. -/
def key (m : Metadata) : String :=
  match m.namespaceName with
  | some ns => ns ++ "/" ++ m.nameOrPrefix
  | none => m.nameOrPrefix

end Metadata

end CustomResource
