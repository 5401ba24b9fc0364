import CustomResource.Decode.Basic

/-!
# Variants

A value that is one of several names. It stands in a text as a string, or as an object whose one key
is the name and whose value is null.

A value that has been set aside, to be read once it is known what it is, is read in the same way but
for one thing: an empty object counts there as null.

## Main definitions

* `Decoder.variant`: the decoder, from what each name means.
* `Decoder.variantAside`: the decoder of a value that has been set aside.
-/

namespace CustomResource.Decoder

/-- A null, in the place of a value that carries nothing. -/
def nothing : Json.Node → Except DecodeError Unit
  | .null => .ok ()
  | node => .error (mismatch "unit" node)

/-- A null or an empty object, in the place of what carries nothing and has been set aside. -/
def nothingAside : Json.Node → Except DecodeError Unit
  | .object [] none => .ok ()
  | node => nothing node

/-- What follows the one member of an object: its closing brace. -/
def variantEnd {α ν : Type} (value : α) : List ν → Option Json.Fault → Except DecodeError α
  | [], none => .ok value
  | [], some .endOfObject => .error (.text .endOfObject)
  | [], some _ => .error (.text .expectedValue)
  | _ :: _, _ => .error (.text .expectedValue)

/-- Reads a value from its name, or from an object whose one key is the name and whose value carries
nothing. No other value is looked at, and an object without a key has no name. -/
def variantWith {α : Type} (carried : Json.Node → Except DecodeError Unit)
    (ofName : String → Except DecodeError α) : Decoder α
  | _, .string lexeme => do
    let name ← key lexeme
    ofName name
  | depth, .object members stop => do
    let _ ← descend depth
    match members with
    | (lexeme, node) :: rest =>
      let name ← key lexeme
      let value ← ofName name
      carried node
      variantEnd value rest stop
    | [] => .error (.text (stop.getD .expectedValue))
  | _, .broken f => .error (.text f)
  | _, _ => .error (.text .expectedValue)

/-- Reads a value from its name, or from an object whose one key is the name and whose value is
null. -/
def variant {α : Type} (ofName : String → Except DecodeError α) : Decoder α :=
  variantWith nothing ofName

/-- Reads a value that has been set aside from its name, or from an object whose one key is the name
and whose value is null or an empty object. -/
def variantAside {α : Type} (ofName : String → Except DecodeError α) : Decoder α :=
  variantWith nothingAside ofName

end CustomResource.Decoder
