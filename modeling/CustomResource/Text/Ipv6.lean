import CustomResource.Text.Digits
import CustomResource.Text.Pieces

/-!
# Addresses with colons

Which texts are IPv6 addresses: eight groups of up to four hexadecimal digits between colons. Two
colons stand for one or more groups of zeros, once, and an IPv4 address may stand in place of the
last two groups.

## Main definitions

* `isIpv4`: whether some characters are an IPv4 address.
* `isIpv6`: whether a text is an IPv6 address.
-/

namespace CustomResource.Text

/-- Whether some characters are a number of an IPv4 address: below 256, without leading zeros. -/
def isIpv4Part (cs : List Char) : Bool :=
  match decimal? cs with
  | some n => n < 256 && cs.length ≤ 3 && (cs.length = 1 || cs.head? ≠ some '0')
  | none => false

/-- Whether some characters are an IPv4 address. -/
def isIpv4 (cs : List Char) : Bool :=
  let parts := splitAt '.' cs
  parts.length = 4 && parts.all isIpv4Part

/-- Whether some characters are a group. -/
def isGroup (cs : List Char) : Bool :=
  1 ≤ cs.length && cs.length ≤ 4 && cs.all fun c => (digitValue? c).isSome

/-- For how many groups some pieces stand, if they stand for any. -/
def groupCount? : List (List Char) → Option Nat
  | [] => some 0
  | [last] => if isIpv4 last then some 2 else if isGroup last then some 1 else none
  | piece :: pieces =>
    if isGroup piece then (groupCount? pieces).map (· + 1) else none

/-- For how many groups some characters without two colons stand. -/
def groups? (cs : List Char) : Option Nat :=
  if cs.isEmpty then some 0 else groupCount? (splitAt ':' cs)

/-- The characters before and after the first two colons. -/
def cutColons? : List Char → Option (List Char × List Char)
  | ':' :: ':' :: rest => some ([], rest)
  | [] => none
  | c :: rest => (cutColons? rest).map fun (before, after) => (c :: before, after)

/-- Whether a text is an IPv6 address. -/
def isIpv6 (text : String) : Bool :=
  let cs := text.toList
  match cutColons? cs with
  | none => groups? cs = some 8 && cs.contains ':'
  | some (before, after) =>
    match groups? before, groups? after with
    | some m, some n => !before.contains '.' && m + n ≤ 7
    | _, _ => false

end CustomResource.Text
