import CustomResource.Text.Digits

/-!
# Base 64

Bytes as letters of an alphabet of 64, four for every three bytes. A last group for one or two bytes
is filled up with equals signs, and the bits that it has too many are zero. A text that breaks these
rules has a first fault.

## Main definitions

* `Base64.Fault`: what is wrong with a text, with its wording.
* `Base64.Rules`: how faults are told in one kind of text.
* `Base64.decode`: the bytes of a text.
-/

namespace CustomResource.Text.Base64

/-! ### Faults -/

/-- What is wrong with a text in base 64: a byte that may not stand at its place, a length that no
bytes have, a last letter with bits that are not zero, or too few equals signs. -/
inductive Fault where
  | byte (value : UInt8) (offset : Nat)
  | length (size : Nat)
  | lastSymbol (value : UInt8) (offset : Nat)
  | padding
  deriving DecidableEq, Repr, Inhabited

/-- How faults are told: what a byte at a wrong place is called, whether the length is looked at
before the bytes, and the wording of a wrong length. -/
structure Rules where
  noun : String
  lengthFirst : Bool
  lengthText : Nat → String

/-- How faults are told in answers of the apiserver. -/
def Rules.ofDocuments : Rules :=
  ⟨"byte", true, fun _ => "Encoded text cannot have a 6-bit remainder."⟩

/-- How faults are told in configurations. -/
def Rules.ofConfigurations : Rules :=
  ⟨"symbol", false, fun n => "Invalid input length: " ++ ofNat n⟩

/-- The wording of a fault. -/
def Fault.message (rules : Rules) : Fault → String
  | .byte value offset =>
    "Invalid " ++ rules.noun ++ " " ++ ofNat value.toNat ++ ", offset " ++ ofNat offset ++ "."
  | .length n => rules.lengthText n
  | .lastSymbol value offset =>
    "Invalid last symbol " ++ ofNat value.toNat ++ ", offset " ++ ofNat offset ++ "."
  | .padding => "Invalid padding"

/-! ### Letters -/

/-- The equals sign. -/
def pad : UInt8 := 0x3D

/-- The value of a letter of the alphabet. -/
def value? (b : UInt8) : Option Nat :=
  let n := b.toNat
  if 0x41 ≤ n ∧ n ≤ 0x5A then some (n - 65)
  else if 0x61 ≤ n ∧ n ≤ 0x7A then some (n - 71)
  else if 0x30 ≤ n ∧ n ≤ 0x39 then some (n + 4)
  else if n = 0x2B then some 62
  else if n = 0x2F then some 63
  else none

/-- The value of the letter at a place. -/
def letter (offset : Nat) (b : UInt8) : Except Fault Nat :=
  match value? b with
  | some n => .ok n
  | none => .error (.byte b offset)

/-- The values of letters, the first of which stands at a place. -/
def letters : Nat → List UInt8 → Except Fault (List Nat)
  | _, [] => .ok []
  | offset, b :: bs => do
    let n ← letter offset b
    let ns ← letters (offset + 1) bs
    return n :: ns

/-! ### Groups -/

/-- The number that the values of the letters of a group make up. -/
def join (ns : List Nat) : Nat :=
  ns.foldl (fun sum n => 64 * sum + n) 0

/-- The lowest byte of a number after a shift. -/
def byteAt (n shift : Nat) : UInt8 := UInt8.ofNat (n / Nat.pow 2 shift)

/-- The bytes of the last group, which stands at a place, from its letters and the number of equals
signs after them. -/
def lastBytes (offset : Nat) (group : List UInt8) (pads : Nat) : Except Fault (List UInt8) := do
  let ns ← letters offset group
  let n := join ns
  let last := group.getLast?.getD 0
  if ns.length = 1 then throw (.length (offset + 1))
  else if (ns.length + pads) % 4 ≠ 0 then throw .padding
  else
    match ns.length with
    | 2 => if n % 16 = 0 then return [byteAt n 4] else throw (.lastSymbol last (offset + 1))
    | 3 =>
      if n % 4 = 0 then return [byteAt n 10, byteAt n 2] else throw (.lastSymbol last (offset + 2))
    | 4 => return [byteAt n 16, byteAt n 8, byteAt n 0]
    | _ => return []

/-- The last group, which stands at a place. Equals signs come after two letters at the earliest,
and nothing else comes after them. -/
def lastGroup (offset : Nat) (group : List UInt8) : Except Fault (List UInt8) :=
  let head := group.takeWhile (· ≠ pad)
  let tail := group.dropWhile (· ≠ pad)
  let misplaced := tail ≠ [] ∧ (head.length < 2 ∨ tail.any (· ≠ pad))
  if misplaced then do
    let _ ← letters offset head
    throw (.byte pad (offset + head.length))
  else lastBytes offset head tail.length

/-- The groups from a place on. -/
def groups : Nat → List UInt8 → Except Fault (List UInt8)
  | offset, a :: b :: c :: d :: e :: rest => do
    let n := join (← letters offset [a, b, c, d])
    let more ← groups (offset + 4) (e :: rest)
    return byteAt n 16 :: byteAt n 8 :: byteAt n 0 :: more
  | offset, group => lastGroup offset group

/-! ### Texts -/

/-- The bytes that a text in base 64 stands for. Where one byte is left over after the last group,
and it is no letter, it is told first. -/
def decode (rules : Rules) (text : List UInt8) : Except Fault (List UInt8) :=
  if text.length % 4 = 1 then
    match text.getLast? with
    | some b =>
      if b ≠ pad ∧ value? b = none then .error (.byte b (text.length - 1))
      else if rules.lengthFirst then .error (.length text.length)
      else groups 0 text
    | none => groups 0 text
  else groups 0 text

end CustomResource.Text.Base64
