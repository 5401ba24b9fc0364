/-!
# Digits

Numbers as the digits of a base, and the digits back as a number. Every exact text format of the
library (escapes, timestamps, durations, JSON numbers) writes and reads its digits here.

## Main definitions

* `digitChar`, `digitValue?`: one digit, in lower-case hexadecimal.
* `ofNat`: the digits of a number, without leading zeros.
* `padded`: the digits filled up with zeros to a width.
* `decimal?`: a number from decimal digits.
-/

namespace CustomResource.Text

/-- The character of a digit below sixteen. -/
def digitChar (d : Nat) : Char :=
  if d < 10 then Char.ofNat (48 + d) else Char.ofNat (87 + d)

/-- The value of a hexadecimal digit of either case. -/
def digitValue? (c : Char) : Option Nat :=
  if '0' ≤ c ∧ c ≤ '9' then some (c.toNat - 48)
  else if 'a' ≤ c ∧ c ≤ 'f' then some (c.toNat - 87)
  else if 'A' ≤ c ∧ c ≤ 'F' then some (c.toNat - 55)
  else none

/-- Whether the character is one of the ten ASCII digits. -/
def isDigit (c : Char) : Bool :=
  '0' ≤ c && c ≤ '9'

/-- The value of a run of decimal digits, most significant first. -/
def decimalValue (cs : List Char) : Nat :=
  cs.foldl (fun n c => 10 * n + (c.toNat - 48)) 0

/-- The digits of `n` before `rest`, taking at most `fuel` steps. -/
def digitsBefore (base : Nat) : Nat → Nat → List Char → List Char
  | 0, _, rest => rest
  | fuel + 1, n, rest =>
    if n < base then digitChar n :: rest
    else digitsBefore base fuel (n / base) (digitChar (n % base) :: rest)

/-- The digits of `n` in a base of at least two; as many steps as `n` has bits suffice. -/
def digitsOf (base n : Nat) : List Char :=
  digitsBefore base (n.log2 + 1) n []

/-- The decimal text of a number. -/
def ofNat (n : Nat) : String :=
  String.ofList (digitsOf 10 n)

/-- The decimal text of an integer. -/
def ofInt : Int → String
  | .ofNat n => ofNat n
  | .negSucc n => "-" ++ ofNat (n + 1)

/-- The lower-case hexadecimal text of a number. -/
def hexOfNat (n : Nat) : String :=
  String.ofList (digitsOf 16 n)

/-- Digits filled up with zeros on the left to a width. -/
def padded (width n : Nat) : String :=
  let ds := digitsOf 10 n
  String.ofList (List.replicate (width - ds.length) '0' ++ ds)

/-- Hexadecimal digits filled up with zeros on the left to a width. -/
def paddedHex (width n : Nat) : List Char :=
  let ds := digitsOf 16 n
  List.replicate (width - ds.length) '0' ++ ds

/-- The digits of a fraction of `width` places, without the zeros at its end. -/
def fractionDigits (width n : Nat) : List Char :=
  ((padded width n).toList.reverse.dropWhile (· = '0')).reverse

/-- A number written in decimal digits only, with at least one of them. -/
def decimal? (cs : List Char) : Option Nat :=
  if cs ≠ [] ∧ cs.all isDigit then some (decimalValue cs) else none

end CustomResource.Text
