import CustomResource.Decode.Basic

/-!
# Records

An object with a fixed set of fields. A record is described by a type that names its fields; the
values found so far are a function on that type. Fields may come in any order, and members that are
no field are passed over.

## Main definitions

* `Slots`: the values of the fields found so far.
* `Record`: the description of a record: fields, their readers, and how the value is built.
* `Record.strict`: the decoder of a record that refuses a field given twice and also accepts an
  array of its fields in order.
* `Record.lenient`: the decoder of a record that keeps the last of several values of a field.
-/

namespace CustomResource

/-- The values of the fields found so far. -/
abbrev Slots {F : Type} (V : F → Type) : Type := (f : F) → Option (V f)

namespace Slots

variable {F : Type} {V : F → Type}

/-- No field has been found. -/
def empty : Slots V := fun _ => none

/-- Sets the value of a field. -/
def set [DecidableEq F] (slots : Slots V) (f : F) (value : V f) : Slots V := fun g =>
  if h : f = g then some (h ▸ value) else slots g

/-- The value of a field that has to be present. -/
def require (slots : Slots V) (name : F → String) (f : F) : Except DecodeError (V f) :=
  match slots f with
  | some value => .ok value
  | none => .error (.missingField (name f))

end Slots

/-- The description of a record: what messages call it, its fields in order, their names, types and
readers, whether a field may be cut off at the end of an array, and the value built of the
fields. -/
structure Record (F : Type) (α : Type) where
  title : String
  fields : List F
  name : F → String
  Value : F → Type
  read : (f : F) → Decoder (Value f)
  mayEnd : F → Bool
  build : Slots Value → Except DecodeError α

namespace Record

variable {F α : Type} [DecidableEq F]

/-- The field of that name. -/
def find? (r : Record F α) (name : String) : Option F :=
  r.fields.find? fun f => r.name f = name

/-- The members of an object and its end. In a strict record no field may be given twice. -/
def members (r : Record F α) (strict : Bool) (depth : Nat) :
    List (Json.Lexeme String × Json.Node) → Option Json.Fault →
    Slots r.Value → Except DecodeError (Slots r.Value)
  | [], stop, slots => Decoder.unlessFault slots stop
  | (lexeme, node) :: rest, stop, slots =>
    match Decoder.key lexeme with
    | .error e => .error e
    | .ok name =>
      match r.find? name with
      | none =>
        match node.skip with
        | .error f => .error (.text f)
        | .ok () => r.members strict depth rest stop slots
      | some f =>
        if strict ∧ (slots f).isSome then .error (.duplicateField name)
        else
          match r.read f depth node with
          | .error e => .error e
          | .ok value => r.members strict depth rest stop (slots.set f value)

/-- What an array holds after the fields of a record: nothing but its end may follow. -/
def arrayEnd {β : Type} (value : β) : List Json.Node → Option Json.Fault → Except DecodeError β
  | [], none => .ok value
  | [], some .endOfArray => .error (.text .endOfArray)
  | .broken .trailingComma :: _, _ => .error (.text .trailingComma)
  | _, _ => .error (.text .trailingText)

/-- How messages name the length of the array form of a record. -/
def lengthText (r : Record F α) : String :=
  let n := r.fields.length
  r.title ++ " with " ++ Text.ofNat n ++ (if n = 1 then " element" else " elements")

/-- The fields in order from the items of an array, with the items and the end that are left.
`count` of them have been read before. -/
def items (r : Record F α) (depth : Nat) :
    List F → Nat → List Json.Node → Option Json.Fault → Slots r.Value →
    Except DecodeError (Slots r.Value × List Json.Node)
  | [], _, nodes, _, slots => .ok (slots, nodes)
  | f :: fs, count, [], stop, slots =>
    match stop with
    | some fault => .error (.text fault)
    | none =>
      if r.mayEnd f then r.items depth fs (count + 1) [] none slots
      else .error (.invalidLength count r.lengthText)
  | f :: fs, count, node :: nodes, stop, slots =>
    match r.read f depth node with
    | .error e => .error e
    | .ok value => r.items depth fs (count + 1) nodes stop (slots.set f value)

/-- Reads a record from an object, or from an array of its fields in order. A field given twice is
an error. -/
def strict (r : Record F α) : Decoder α
  | depth, .object nodes stop => do
    let depth ← Decoder.descend depth
    r.build (← r.members true depth nodes stop Slots.empty)
  | depth, .array nodes stop => do
    let depth ← Decoder.descend depth
    let (slots, nodes) ← r.items depth r.fields 0 nodes stop Slots.empty
    arrayEnd (← r.build slots) nodes stop
  | _, node => .error (Decoder.mismatch r.title node)

/-- Reads a record from an object. Of several values of a field the last one is kept. -/
def lenient (r : Record F α) : Decoder α
  | depth, .object nodes stop => do
    let depth ← Decoder.descend depth
    r.build (← r.members false depth nodes stop Slots.empty)
  | depth, .array nodes stop => do
    let _ ← Decoder.descend depth
    .error (Decoder.mismatch r.title (.array nodes stop))
  | _, node => .error (Decoder.mismatch r.title node)

end Record

end CustomResource
