import CustomResource.Decode.Record
import CustomResource.Definition.Shape
import CustomResource.Resource.Metadata

/-!
# The status of a definition

What the apiserver reports about a definition, above all its conditions.

## Main definitions

* `Definition.Condition`: one report, with `decode` and `encode`.
* `Definition.Status`: all that is reported, with `decode` and `encode`.
-/

namespace CustomResource

namespace Definition

/-- One report on a definition. -/
structure Condition where
  lastTransitionTime : Option Timestamp := none
  message : Option String := none
  reason : Option String := none
  status : String := ""
  type : String := ""
  deriving DecidableEq, Repr, Inhabited

namespace Condition

/-- The fields of a condition. -/
inductive Field where
  | lastTransitionTime
  | message
  | reason
  | status
  | type
  deriving DecidableEq, Repr

/-- The description of a condition as a record. -/
def record : Record Field Condition where
  title := "CustomResourceDefinitionCondition"
  fields := [.lastTransitionTime, .message, .reason, .status, .type]
  name
    | .lastTransitionTime => "lastTransitionTime"
    | .message => "message"
    | .reason => "reason"
    | .status => "status"
    | .type => "type"
  Value
    | .lastTransitionTime => Option Timestamp
    | .message => Option String
    | .reason => Option String
    | .status => Option String
    | .type => Option String
  read
    | .lastTransitionTime => Decoder.optional Decoder.timestamp
    | .message => Decoder.optional Decoder.string
    | .reason => Decoder.optional Decoder.string
    | .status => Decoder.optional Decoder.string
    | .type => Decoder.optional Decoder.string
  mayEnd _ := true
  build slots := .ok
    { lastTransitionTime := (slots .lastTransitionTime).join
      message := (slots .message).join
      reason := (slots .reason).join
      status := (slots .status).join.getD ""
      type := (slots .type).join.getD "" }

/-- Reads a condition. -/
def decode : Decoder Condition := record.lenient

/-- A condition as JSON. -/
def encode (c : Condition) : Json :=
  .object <|
    Json.optional "lastTransitionTime" (c.lastTransitionTime.map fun t => .string t.render) ++
    Json.optional "message" (c.message.map .string) ++
    Json.optional "reason" (c.reason.map .string) ++
    [("status", .string c.status), ("type", .string c.type)]

end Condition

/-- What the apiserver reports about a definition. -/
structure Status where
  acceptedNames : Option Json := none
  conditions : Option (List Condition) := none
  storedVersions : Option (List String) := none
  deriving Repr, Inhabited

namespace Status

/-- The fields of the status of a definition. -/
inductive Field where
  | acceptedNames
  | conditions
  | storedVersions
  deriving DecidableEq, Repr

/-- The description of the status of a definition as a record. -/
def record : Record Field Definition.Status where
  title := "CustomResourceDefinitionStatus"
  fields := [.acceptedNames, .conditions, .storedVersions]
  name
    | .acceptedNames => "acceptedNames"
    | .conditions => "conditions"
    | .storedVersions => "storedVersions"
  Value
    | .acceptedNames => Option Json
    | .conditions => Option (List Condition)
    | .storedVersions => Option (List String)
  read
    | .acceptedNames => Decoder.optional namesShape.decode
    | .conditions => Decoder.optional (Decoder.list Condition.decode)
    | .storedVersions => Decoder.optional Decoder.strings
  mayEnd _ := true
  build slots := .ok
    { acceptedNames := (slots .acceptedNames).join
      conditions := (slots .conditions).join
      storedVersions := (slots .storedVersions).join }

/-- Reads the status of a definition. -/
def decode : Decoder Definition.Status := record.lenient

/-- The status of a definition as JSON. -/
def encode (s : Definition.Status) : Json :=
  .object <|
    Json.optional "acceptedNames" s.acceptedNames ++
    Json.optional "conditions" (s.conditions.map fun cs => .array (cs.map Condition.encode)) ++
    Json.optional "storedVersions" (s.storedVersions.map Json.ofStrings)

end Status

end Definition

end CustomResource
