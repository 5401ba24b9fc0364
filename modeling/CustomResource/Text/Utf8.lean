import CustomResource.Text.Digits

/-!
# Text in bytes

Bytes as the UTF-8 form of a text, and where bytes that are none go wrong.

## Main definitions

* `Utf8Fault`: the place and the length of the first wrong sequence, with its wording.
* `utf8Fault`: the first wrong sequence.
* `decodeUtf8`: the text of some bytes.
-/

namespace CustomResource.Text

/-- The first sequence of bytes that is not UTF-8: its index, and how many bytes of it are wrong. A
sequence that the end of the bytes cuts off has no length. -/
structure Utf8Fault where
  index : Nat
  length : Option Nat
  deriving DecidableEq, Repr, Inhabited

/-- The wording of a fault. -/
def Utf8Fault.message (f : Utf8Fault) : String :=
  match f.length with
  | some n => "invalid utf-8 sequence of " ++ ofNat n ++ " bytes from index " ++ ofNat f.index
  | none => "incomplete utf-8 byte sequence from index " ++ ofNat f.index

/-- Whether a byte lies between two bounds. -/
def between (low high : Nat) (b : UInt8) : Bool :=
  low ≤ b.toNat && b.toNat ≤ high

/-- The ranges of the bytes that may follow a first byte; none for a byte that cannot be first. -/
def following? (first : UInt8) : Option (List (Nat × Nat)) :=
  let any := (0x80, 0xBF)
  if between 0x00 0x7F first then some []
  else if between 0xC2 0xDF first then some [any]
  else if between 0xE0 0xE0 first then some [(0xA0, 0xBF), any]
  else if between 0xE1 0xEC first then some [any, any]
  else if between 0xED 0xED first then some [(0x80, 0x9F), any]
  else if between 0xEE 0xEF first then some [any, any]
  else if between 0xF0 0xF0 first then some [(0x90, 0xBF), any, any]
  else if between 0xF1 0xF3 first then some [any, any, any]
  else if between 0xF4 0xF4 first then some [(0x80, 0x8F), any, any]
  else none

/-- Matches bytes with ranges: the bytes after them, or else how many bytes of the sequence, counted
from `seen`, are wrong. -/
def matchRanges : Nat → List (Nat × Nat) → List UInt8 → Except (Option Nat) (List UInt8)
  | _, [], bytes => .ok bytes
  | _, _ :: _, [] => .error none
  | seen, (low, high) :: ranges, b :: bytes =>
    if between low high b then matchRanges (seen + 1) ranges bytes else .error (some seen)

/-- The first wrong sequence of some bytes, in at most `fuel` steps; `index` bytes stand before
them. -/
def utf8FaultFrom : Nat → Nat → List UInt8 → Option Utf8Fault
  | 0, _, _ => none
  | _ + 1, _, [] => none
  | fuel + 1, index, b :: bytes =>
    match following? b with
    | none => some ⟨index, some 1⟩
    | some ranges =>
      match matchRanges 1 ranges bytes with
      | .error length => some ⟨index, length⟩
      | .ok rest => utf8FaultFrom fuel (index + 1 + ranges.length) rest

/-- The first wrong sequence of some bytes. -/
def utf8Fault (bytes : List UInt8) : Option Utf8Fault :=
  utf8FaultFrom (bytes.length + 1) 0 bytes

/-- The text whose UTF-8 form the bytes are. -/
def decodeUtf8 (bytes : ByteArray) : Except Utf8Fault String :=
  match String.fromUTF8? bytes with
  | some text => .ok text
  | none => .error ((utf8Fault bytes.toList).getD ⟨0, none⟩)

end CustomResource.Text
