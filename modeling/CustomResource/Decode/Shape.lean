import CustomResource.Decode.Basic

/-!
# Shapes of documents

Parts of an object that the library only passes on are not given a type of their own. Their shape is
checked, members that the shape does not name are left out, and the rest is kept as JSON.

## Main definitions

* `Shape`: what a part may hold.
* `Shape.decode`: the decoder of a shape.
* `Shape.empty`: a record of which every field is missing.
-/

namespace CustomResource

/-- What a part of a document may hold. A schema is a record that may hold schemas in turn, so it is
named and not spelled out. A field of a record has a name, a shape and, if it is always written, the
value that stands for a missing one. -/
inductive Shape where
  | text
  | constant (value : String)
  | bool
  | int32
  | int64
  | number
  | bytes
  | any
  | timestamp
  | list (item : Shape)
  | map (value : Shape)
  | record (title : String) (fields : List (String × Option Json × Shape))
  | schema
  | schemaOrBool
  | schemaOrList
  | schemaOrTexts
  deriving Inhabited

namespace Shape

/-- A field that is written only when it is present. -/
def field (name : String) (shape : Shape) : String × Option Json × Shape := (name, none, shape)

/-- A text that is empty when it is missing. -/
def requiredText (name : String) : String × Option Json × Shape :=
  (name, some (.string ""), .text)

/-- A truth value that is false when it is missing. -/
def requiredFlag (name : String) : String × Option Json × Shape :=
  (name, some (.bool false), .bool)

/-- The fields of a schema. -/
def schemaFields : List (String × Option Json × Shape) :=
  [ field "$ref" .text,
    field "$schema" .text,
    field "additionalItems" .schemaOrBool,
    field "additionalProperties" .schemaOrBool,
    field "allOf" (.list .schema),
    field "anyOf" (.list .schema),
    field "default" .any,
    field "definitions" (.map .schema),
    field "dependencies" (.map .schemaOrTexts),
    field "description" .text,
    field "enum" (.list .any),
    field "example" .any,
    field "exclusiveMaximum" .bool,
    field "exclusiveMinimum" .bool,
    field "externalDocs"
      (.record "ExternalDocumentation" [field "description" .text, field "url" .text]),
    field "format" .text,
    field "id" .text,
    field "items" .schemaOrList,
    field "maxItems" .int64,
    field "maxLength" .int64,
    field "maxProperties" .int64,
    field "maximum" .number,
    field "minItems" .int64,
    field "minLength" .int64,
    field "minProperties" .int64,
    field "minimum" .number,
    field "multipleOf" .number,
    field "not" .schema,
    field "nullable" .bool,
    field "oneOf" (.list .schema),
    field "pattern" .text,
    field "patternProperties" (.map .schema),
    field "properties" (.map .schema),
    field "required" (.list .text),
    field "title" .text,
    field "type" .text,
    field "uniqueItems" .bool,
    field "x-kubernetes-embedded-resource" .bool,
    field "x-kubernetes-int-or-string" .bool,
    field "x-kubernetes-list-map-keys" (.list .text),
    field "x-kubernetes-list-type" .text,
    field "x-kubernetes-map-type" .text,
    field "x-kubernetes-preserve-unknown-fields" .bool,
    field "x-kubernetes-validations"
      (.list (.record "ValidationRule"
        [field "fieldPath" .text, field "message" .text, field "messageExpression" .text,
          field "optionalOldSelf" .bool, field "reason" .text, requiredText "rule"])) ]

/-- What messages call the shape. -/
def title : Shape → String
  | .text => "a string"
  | .constant _ => "a string"
  | .bool => "a boolean"
  | .int32 => "i32"
  | .int64 => "i64"
  | .number => "f64"
  | .bytes => "a base64-encoded string"
  | .any => "any valid JSON value"
  | .timestamp => "an RFC 3339 formatted date and time string"
  | .list _ => "a sequence"
  | .map _ => "a map"
  | .record title _ => title
  | .schema => "JSONSchemaProps"
  | .schemaOrBool => "JSONSchemaPropsOrBool"
  | .schemaOrList => "JSONSchemaPropsOrArray"
  | .schemaOrTexts => "JSONSchemaPropsOrStringArray"

/-- The fields of a record, if the shape is one or may be one. -/
def fields? : Shape → Option (List (String × Option Json × Shape))
  | .record _ fields => some fields
  | .schema => some schemaFields
  | .schemaOrBool => some schemaFields
  | .schemaOrList => some schemaFields
  | .schemaOrTexts => some schemaFields
  | _ => none

/-- The shape of the items, if the shape is a list or may be one. -/
def item? : Shape → Option Shape
  | .list item => some item
  | .schemaOrList => some .schema
  | .schemaOrTexts => some .text
  | _ => none

/-- A record as JSON, from the values that were found: in the order of its fields, with what stands
for a missing one. -/
def assemble (fields : List (String × Option Json × Shape)) (found : List (String × Json)) : Json :=
  .object (fields.flatMap fun (name, absent, _) =>
    Json.optional name ((found.lookup name).or absent))

/-- A record of which every field is missing. -/
def empty (shape : Shape) : Json := assemble (shape.fields?.getD []) []

/-- A value that is neither a list nor an object. -/
def decodeScalar (shape : Shape) (depth : Nat) (node : Json.Node) : Except DecodeError Json :=
  match shape with
  | .text => (Decoder.string depth node).map .string
  | .constant value => do
    let s ← Decoder.string depth node
    if s = value then return .string s else throw (.invalidValue (.string s) value)
  | .bool => (Decoder.bool depth node).map .bool
  | .int32 => (Decoder.int32 depth node).map fun n => .int n.toInt
  | .int64 => (Decoder.int64 depth node).map fun n => .int n.toInt
  | .number => (Decoder.number depth node).map .number
  | .bytes =>
    match node with
    | .string ⟨.ok s, _⟩ =>
      match Text.Base64.decode .ofDocuments s.toUTF8.toList with
      | .ok _ => .ok (.string s)
      | .error f => .error (.base64 f)
    | _ => .error (Decoder.mismatch shape.title node)
  | .any => Decoder.json depth node
  | .timestamp => (Decoder.timestamp depth node).map fun t => .string t.render
  | .schemaOrBool =>
    match node with
    | .bool b => .ok (.bool b)
    | _ => .error (Decoder.mismatch shape.title node)
  | _ => .error (Decoder.mismatch shape.title node)

/-- Whether a null is refused, rather than taken for a missing value. -/
def refusesNull : Shape → Bool
  | .constant _ => true
  | _ => false

mutual

/-- Reads a part of that shape. An array in place of a record is one level of nesting, even though
it is refused. -/
def decode (shape : Shape) : Nat → Json.Node → Except DecodeError Json
  | depth, .array nodes stop =>
    match shape, shape.item? with
    | .any, _ => Decoder.json depth (.array nodes stop)
    | _, none =>
      match shape.fields?.isSome, Decoder.descend depth with
      | true, .error e => .error e
      | _, _ => .error (Decoder.mismatch shape.title (.array nodes stop))
    | _, some item =>
      match Decoder.descend depth with
      | .error e => .error e
      | .ok depth => (decodeItems item depth nodes stop).map .array
  | depth, .object members stop =>
    match shape, shape.fields? with
    | .any, _ => Decoder.json depth (.object members stop)
    | .map value, _ =>
      match Decoder.descend depth with
      | .error e => .error e
      | .ok depth => (decodeEntries value depth members stop []).map .object
    | _, none => .error (Decoder.mismatch shape.title (.object members stop))
    | _, some fields =>
      match Decoder.descend depth with
      | .error e => .error e
      | .ok depth => (decodeFields fields depth members stop []).map (assemble fields)
  | depth, node => decodeScalar shape depth node

/-- The items of a list and its end. -/
def decodeItems (item : Shape) : Nat → List Json.Node → Option Json.Fault →
    Except DecodeError (List Json)
  | _, [], stop => Decoder.unlessFault [] stop
  | depth, node :: nodes, stop =>
    match decode item depth node with
    | .error e => .error e
    | .ok value => (decodeItems item depth nodes stop).map (value :: ·)

/-- The members of a map and its end, put into those read before. -/
def decodeEntries (value : Shape) : Nat → List (Json.Lexeme String × Json.Node) →
    Option Json.Fault → List (String × Json) →
    Except DecodeError (List (String × Json))
  | _, [], stop, done => Decoder.unlessFault done stop
  | depth, (lexeme, node) :: members, stop, done =>
    match Decoder.key lexeme with
    | .error e => .error e
    | .ok name =>
      match decode value depth node with
      | .error e => .error e
      | .ok v => decodeEntries value depth members stop (Json.putSorted name v done)

/-- The members of a record and its end. The last of several values of a field is kept, and a null
takes it away. -/
def decodeFields (fields : List (String × Option Json × Shape)) : Nat →
    List (Json.Lexeme String × Json.Node) → Option Json.Fault →
    List (String × Json) → Except DecodeError (List (String × Json))
  | _, [], stop, done => Decoder.unlessFault done stop
  | depth, (lexeme, node) :: members, stop, done =>
    match Decoder.key lexeme with
    | .error e => .error e
    | .ok name =>
      match fields.lookup name, node with
      | none, node =>
        match node.skip with
        | .error f => .error (.text f)
        | .ok () => decodeFields fields depth members stop done
      | some (_, shape), node =>
        if ¬ shape.refusesNull ∧ node.isNull then
          decodeFields fields depth members stop (done.filter fun m => m.1 ≠ name)
        else
          match decode shape depth node with
          | .error e => .error e
          | .ok v => decodeFields fields depth members stop (Json.putSorted name v done)

end

end Shape

end CustomResource
