import CustomResource.Definition.Basic
import CustomResource.Proofs.Json.Parts

/-!
# Validation against a published schema

The apiserver knows a kind by its definition alone, which is JSON. Here a value is validated against
a schema as it stands there, whatever type the schema was made from.

An integer of 32 bits is canonical if it is written as such: `1.0` and `1e0` are integers for a
schema, but doubles for a reader of integers.

## Main definitions

* `Json.conformsTo`: whether a value is valid for a schema.
* `Json.hasCanonicalIntegers`: the values whose integers are written as such.
* `Definition.schema?`: the schema that a definition publishes.

## Main results

* `Schema.conformsTo_object` and its siblings: what the JSON of a schema asks for.
-/

namespace CustomResource

/-! ### Integers -/

/-- The value of a double that is an integer. -/
def Binary64.integer? (x : Binary64) : Option Int :=
  let magnitude : Option Nat :=
    if 0 ≤ x.exponent then some (x.mantissa * Nat.pow 2 x.exponent.toNat)
    else
      let den := Nat.pow 2 (-x.exponent).toNat
      if x.mantissa % den = 0 then some (x.mantissa / den) else none
  magnitude.map fun n => if x.negative then -(n : Int) else n

namespace Json

/-- The value of a number that is an integer, in whatever form it is written. -/
def Number.integer? : Number → Option Int
  | .int n => some n
  | .float x => x.integer?

/-- Whether an integer has 32 bits with a sign. -/
def isInt32 (n : Int) : Bool := -2147483648 ≤ n && n ≤ 2147483647

/-! ### Valid values -/

/-- Whether a schema is one for values of that type. One without a type is one for all values. -/
def isFor (schema : Json) (type : String) : Bool :=
  match schema.get? "type" with
  | some (.string name) => name = type
  | some _ => false
  | none => true

/-- Whether a number is valid for a schema: its type, and its range if that is given by a format. -/
def numberConformsTo (n : Number) (schema : Json) : Bool :=
  (schema.isFor "number" || (schema.isFor "integer" && n.integer?.isSome)) &&
    match schema.get? "format" with
    | some (.string "int32") => n.integer?.any isInt32
    | _ => true

/-- Whether the members of an object are all that a schema requires. -/
def hasRequired (members : List (String × Json)) (schema : Json) : Bool :=
  match schema.get? "required" with
  | some (.array names) => names.all fun
    | .string name => (members.lookup name).isSome
    | _ => false
  | _ => true

mutual

/-- Whether a value is valid for a schema: `type`, `nullable`, `format`, `items`, `properties` and
`required` are looked at. -/
def conformsTo : Json → Json → Bool
  | .null, schema =>
    match schema.get? "nullable" with
    | some (.bool nullable) => nullable
    | _ => false
  | .bool _, schema => schema.isFor "boolean"
  | .number n, schema => numberConformsTo n schema
  | .string _, schema => schema.isFor "string"
  | .array items, schema => schema.isFor "array" && itemsConformTo items (schema.get? "items")
  | .object members, schema =>
    schema.isFor "object" && hasRequired members schema &&
      membersConformTo members (schema.get? "properties")

/-- Whether each item of an array is valid, if there is a schema for them. -/
def itemsConformTo : List Json → Option Json → Bool
  | [], _ => true
  | item :: items, schema =>
    (match schema with
      | some schema => item.conformsTo schema
      | none => true) && itemsConformTo items schema

/-- Whether each member of an object is valid that is among the properties. -/
def membersConformTo : List (String × Json) → Option Json → Bool
  | [], _ => true
  | (name, value) :: members, properties =>
    (match properties.bind (get? name) with
      | some schema => value.conformsTo schema
      | none => true) && membersConformTo members properties

end

theorem itemsConformTo_iff {items : List Json} {schema : Json} :
    itemsConformTo items (some schema) = true ↔ ∀ item ∈ items, item.conformsTo schema = true := by
  induction items with
  | nil => simp [itemsConformTo]
  | cons item items ih => rw [itemsConformTo, Bool.and_eq_true, ih, List.forall_mem_cons]

theorem membersConformTo_iff {members : List (String × Json)} {properties : List (String × Json)} :
    membersConformTo members (some (.object properties)) = true ↔
      ∀ name value schema, (name, value) ∈ members → properties.lookup name = some schema →
        value.conformsTo schema = true := by
  induction members with
  | nil => simp [membersConformTo]
  | cons m members ih =>
    obtain ⟨name, value⟩ := m
    rw [membersConformTo, Bool.and_eq_true, ih]
    change (match properties.lookup name with
      | some schema => value.conformsTo schema
      | none => true) = true ∧ _ ↔ _
    constructor
    · rintro ⟨hvalue, hrest⟩ name' value' schema hmem hschema
      obtain heq | hmem := List.mem_cons.mp hmem
      · obtain ⟨rfl, rfl⟩ := Prod.mk.inj heq
        simpa [hschema] using hvalue
      · exact hrest name' value' schema hmem hschema
    · intro h
      refine ⟨?_, fun name' value' schema hmem => ?_⟩
      · cases hschema : properties.lookup name with
        | none => rfl
        | some schema => exact h name value schema List.mem_cons_self hschema
      · exact h name' value' schema (List.mem_cons_of_mem _ hmem)

end Json

/-! ### What the JSON of a schema asks for -/

namespace Schema

variable {n : Notes} {v : Json}

section Members

variable (n : Notes) (type : String) (format items properties required : Option Json)

/-- The members of a schema as parts that may be missing. -/
theorem lookup_members (key : String) :
    (members n type format items properties required).lookup key =
      (if key = "default" then n.default else none).or
        ((if key = "description" then n.description.map .string else none).or
          ((if key = "format" then format else none).or
            ((if key = "items" then items else none).or
              ((if key = "nullable" then if n.nullable then some (.bool true) else none
                else none).or
                ((if key = "properties" then properties else none).or
                  ((if key = "required" then required else none).or
                    ((if key = "title" then n.title.map .string else none).or
                      (if key = "type" then some (.string type) else none)))))))) := by
  have htype : [("type", Json.string type)].lookup key =
      if key = "type" then some (.string type) else none :=
    Json.lookup_optional key "type" (some (.string type))
  simp only [members, List.lookup_append, Json.lookup_optional, htype, Option.or_assoc]

@[simp] theorem get?_type :
    (Json.object (members n type format items properties required)).get? "type" =
      some (.string type) := by
  simp [Json.get?, lookup_members]

@[simp] theorem get?_format :
    (Json.object (members n type format items properties required)).get? "format" =
      format := by
  simp [Json.get?, lookup_members]

@[simp] theorem get?_items :
    (Json.object (members n type format items properties required)).get? "items" =
      items := by
  simp [Json.get?, lookup_members]

@[simp] theorem get?_nullable :
    (Json.object (members n type format items properties required)).get? "nullable" =
      if n.nullable then some (.bool true) else none := by
  simp [Json.get?, lookup_members]

@[simp] theorem get?_properties :
    (Json.object (members n type format items properties required)).get? "properties" =
      properties := by
  simp [Json.get?, lookup_members]

@[simp] theorem get?_required :
    (Json.object (members n type format items properties required)).get? "required" =
      required := by
  simp [Json.get?, lookup_members]

end Members

/-- A null is valid where the schema says so. -/
theorem conformsTo_null (type : String) (format items properties required : Option Json) :
    Json.null.conformsTo (.object (members n type format items properties required)) =
      n.nullable := by
  rw [Json.conformsTo, get?_nullable]
  cases n.nullable <;> rfl

theorem conformsTo_string : v.conformsTo (Schema.string n).encode = true ↔
    (v = .null ∧ n.nullable = true) ∨ ∃ s, v = .string s := by
  rw [encode]
  cases v with
  | null => simp [conformsTo_null]
  | object ms => simp [Json.conformsTo, Json.isFor]
  | number x => simp [Json.conformsTo, Json.numberConformsTo, Json.isFor]
  | _ => simp [Json.conformsTo, Json.isFor]

theorem conformsTo_boolean : v.conformsTo (Schema.boolean n).encode = true ↔
    (v = .null ∧ n.nullable = true) ∨ ∃ b, v = .bool b := by
  rw [encode]
  cases v with
  | null => simp [conformsTo_null]
  | number x => simp [Json.conformsTo, Json.numberConformsTo, Json.isFor]
  | _ => simp [Json.conformsTo, Json.isFor]

theorem conformsTo_int32 : v.conformsTo (Schema.int32 n).encode = true ↔
    (v = .null ∧ n.nullable = true) ∨ ∃ x i, v = .number x ∧ x.integer? = some i ∧
      Json.isInt32 i = true := by
  rw [encode]
  cases v with
  | null => simp [conformsTo_null]
  | number x =>
    simp only [Json.conformsTo, Json.numberConformsTo, Json.isFor, get?_type, get?_format]
    cases hx : x.integer? <;> simp [hx]
  | _ => simp [Json.conformsTo, Json.isFor]

theorem conformsTo_array {items : Schema} : v.conformsTo (Schema.array n items).encode = true ↔
    (v = .null ∧ n.nullable = true) ∨
      ∃ values, v = .array values ∧ ∀ value ∈ values, value.conformsTo items.encode = true := by
  rw [encode]
  cases v with
  | null => simp [conformsTo_null]
  | array values => simp [Json.conformsTo, Json.isFor, Json.itemsConformTo_iff]
  | number x => simp [Json.conformsTo, Json.numberConformsTo, Json.isFor]
  | _ => simp [Json.conformsTo, Json.isFor]

theorem lookup_encodeProperties (properties : List (String × Schema)) (name : String) :
    (encodeProperties properties).lookup name = (properties.lookup name).map encode := by
  induction properties with
  | nil => rfl
  | cons p properties ih =>
    obtain ⟨key, s⟩ := p
    rw [encodeProperties, List.lookup_cons, List.lookup_cons, ih]
    cases name == key <;> rfl

theorem membersConformTo_encodeProperties {ms : List (String × Json)}
    {properties : List (String × Schema)} :
    Json.membersConformTo ms (some (.object (encodeProperties properties))) = true ↔
      ∀ name value s, (name, value) ∈ ms → properties.lookup name = some s →
        value.conformsTo s.encode = true := by
  simp only [Json.membersConformTo_iff, lookup_encodeProperties, Option.map_eq_some_iff]
  constructor
  · exact fun h name value s hmem hs => h name value _ hmem ⟨s, hs, rfl⟩
  · rintro h name value _ hmem ⟨s, hs, rfl⟩
    exact h name value s hmem hs

theorem hasRequired_iff {ms : List (String × Json)} {type : String}
    {format items properties : Option Json} {required : List String} :
    Json.hasRequired ms (.object (members n type format items properties
      (if required.isEmpty then none else some (Json.ofStrings required)))) = true ↔
      ∀ name ∈ required, (ms.lookup name).isSome = true := by
  rw [Json.hasRequired, get?_required]
  cases required with
  | nil => simp
  | cons name required => simp [Json.ofStrings]

/-- **What the JSON of a schema of objects asks for.** -/
theorem conformsTo_object {properties : List (String × Schema)} {required : List String} :
    v.conformsTo (Schema.object n properties required).encode = true ↔
      (v = .null ∧ n.nullable = true) ∨ ∃ ms, v = .object ms ∧
        (∀ name ∈ required, (ms.lookup name).isSome = true) ∧
        ∀ name value s, (name, value) ∈ ms → properties.lookup name = some s →
          value.conformsTo s.encode = true := by
  rw [encode]
  cases v with
  | null => simp [conformsTo_null]
  | object ms =>
    rw [Json.conformsTo, Bool.and_eq_true, Bool.and_eq_true, hasRequired_iff, get?_properties,
      membersConformTo_encodeProperties]
    simp [Json.isFor]
  | number x => simp [Json.conformsTo, Json.numberConformsTo, Json.isFor]
  | _ => simp [Json.conformsTo, Json.isFor]

/-- What is valid where null is not accepted is an object. -/
theorem exists_members_of_conformsTo {properties : List (String × Schema)} {required : List String}
    (h : v.conformsTo (Schema.object n properties required).encode = true)
    (hnotes : n.nullable = false) : ∃ ms, v = .object ms ∧
      (∀ name ∈ required, (ms.lookup name).isSome = true) ∧
      ∀ name value s, (name, value) ∈ ms → properties.lookup name = some s →
        value.conformsTo s.encode = true :=
  (conformsTo_object.mp h).resolve_left fun hnull => by simp [hnotes] at hnull

/-- An object is valid if it has all members that are required, and none that is not valid. -/
theorem conformsTo_of_members {ms : List (String × Json)} {properties : List (String × Schema)}
    {required : List String} (hrequired : ∀ name ∈ required, (ms.lookup name).isSome = true)
    (hvalid : ∀ name value s, (name, value) ∈ ms → properties.lookup name = some s →
      value.conformsTo s.encode = true) :
    (Json.object ms).conformsTo (Schema.object n properties required).encode = true :=
  conformsTo_object.mpr (Or.inr ⟨ms, rfl, hrequired, hvalid⟩)

end Schema

/-! ### Values that are written plainly -/

namespace Json

/-- Whether no integer of 32 bits in a value is written as a double. -/
def hasCanonicalIntegers (v : Json) : Bool :=
  v.all fun
    | .number (.float x) => !x.integer?.any isInt32
    | _ => true

theorem hasCanonicalIntegers_object {members : List (String × Json)} :
    (object members).hasCanonicalIntegers = true ↔
      ∀ m ∈ members, m.2.hasCanonicalIntegers = true := by
  rw [hasCanonicalIntegers, all_object]
  exact and_iff_right rfl

end Json

/-! ### The schema of a kind -/

/-- The schema that a definition publishes: that of its first version. -/
def Definition.schema? (d : Definition) : Option Json := do
  let spec ← d.encode.get? "spec"
  let versions ← spec.get? "versions"
  match versions with
  | .array (version :: _) =>
    let schema ← version.get? "schema"
    schema.get? "openAPIV3Schema"
  | _ => none

theorem Kind.schema?_definition (k : Kind) : k.definition.schema? = some k.schema.encode := by
  rfl

end CustomResource
