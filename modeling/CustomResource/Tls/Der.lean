/-!
# Tagged values

Certificates and keys are nested values, each with a tag, the size of its content, and the content.
Sizes are written in the shortest way, and no content is larger than 65534 bytes.

## Main definitions

* `Der.next?`: the first value of some bytes.
* `Der.values?`: all values of some bytes.
-/

namespace CustomResource.Tls.Der

/-- A value: its tag and its content. -/
structure Value where
  tag : UInt8
  content : List UInt8
  deriving DecidableEq, Repr, Inhabited

/-- The tag of a truth value. -/
def boolean : UInt8 := 0x01

/-- The tag of an integer. -/
def integer : UInt8 := 0x02

/-- The tag of a string of bits. -/
def bitString : UInt8 := 0x03

/-- The tag of a string of bytes. -/
def octetString : UInt8 := 0x04

/-- The tag of the name of a kind of thing. -/
def identifier : UInt8 := 0x06

/-- The tag of a sequence. -/
def sequence : UInt8 := 0x30

/-- The tag of the field of that number in a sequence. -/
def field (n : UInt8) : UInt8 := 0xA0 + n

/-- A size in that many bytes, and the bytes after it. A size that fits into fewer bytes, or into
the first byte alone, is not written in the shortest way. -/
def longSize? (count : Nat) (bytes : List UInt8) : Option (Nat × List UInt8) :=
  let n := (bytes.take count).foldl (fun n b => 256 * n + b.toNat) 0
  let least := if count = 1 then 0x80 else Nat.pow 256 (count - 1)
  if bytes.length < count ∨ n < least then none else some (n, bytes.drop count)

/-- A size and the bytes after it. -/
def size? : List UInt8 → Option (Nat × List UInt8)
  | [] => none
  | b :: rest =>
    if b < 0x80 then some (b.toNat, rest)
    else if 0x81 ≤ b ∧ b ≤ 0x84 then longSize? (b.toNat - 0x80) rest
    else none

/-- The first value of some bytes, and the bytes after it. -/
def next? : List UInt8 → Option (Value × List UInt8)
  | [] => none
  | tag :: rest =>
    match size? rest with
    | some (n, rest) =>
      if tag &&& 0x1F = 0x1F ∨ 0xFFFF ≤ n ∨ rest.length < n then none
      else some (⟨tag, rest.take n⟩, rest.drop n)
    | none => none

/-- The values of some bytes, `fuel` of them at most; none if bytes are left. -/
def valuesUpTo? : Nat → List UInt8 → Option (List Value)
  | _, [] => some []
  | 0, _ :: _ => none
  | fuel + 1, bytes =>
    match next? bytes with
    | some (v, rest) => (valuesUpTo? fuel rest).map (v :: ·)
    | none => none

/-- All values of some bytes. Each of them takes two bytes at least. -/
def values? (bytes : List UInt8) : Option (List Value) :=
  valuesUpTo? bytes.length bytes

/-- The values in a value of that tag. -/
def Value.inside? (v : Value) (tag : UInt8) : Option (List Value) :=
  if v.tag = tag then values? v.content else none

/-- The values in the sequence that some bytes are. -/
def sequence? (bytes : List UInt8) : Option (List Value) :=
  match values? bytes with
  | some [v] => v.inside? sequence
  | _ => none

end CustomResource.Tls.Der
