/-!
# Binary floating point numbers of 64 bits

A finite double is a sign, a mantissa below `2 ^ 53` and a power of two. Arithmetic on them is exact
arithmetic on ratios of natural numbers, followed by one rounding to the nearest double.

## Main definitions

* `Binary64`: the finite doubles.
* `Binary64.round?`: the double nearest to a ratio, ties to the even mantissa.
* `Binary64.ofDecimal?`: the double that a reader takes from decimal digits and a power of ten.
* `Binary64.nearest?`: the double nearest to decimal digits and a power of ten.
-/

namespace CustomResource

/-- A finite double, `± mantissa * 2 ^ exponent`. Zero has mantissa and exponent zero; any other
value has the exponent that makes its mantissa at least `2 ^ 52`, or else the least exponent
`-1074`. -/
structure Binary64 where
  negative : Bool
  mantissa : Nat
  exponent : Int
  deriving DecidableEq, Repr, Inhabited

namespace Binary64

/-- The value of `m * 2 ^ e` as a ratio of natural numbers. -/
def ratio (m : Nat) (e : Int) : Nat × Nat :=
  if 0 ≤ e then (m * Nat.pow 2 e.toNat, 1) else (m, Nat.pow 2 (-e).toNat)

/-- The quotient rounded to the nearest integer, a half to the even neighbour. -/
def roundHalfEven (num den : Nat) : Nat :=
  let q := num / den
  let twice := 2 * (num % den)
  if twice < den then q
  else if den < twice then q + 1
  else if q % 2 = 0 then q else q + 1

/-- The quotient of a ratio by `2 ^ e`, rounded. -/
def roundAt (num den : Nat) (e : Int) : Nat :=
  if 0 ≤ e then roundHalfEven num (den * Nat.pow 2 e.toNat)
  else roundHalfEven (num * Nat.pow 2 (-e).toNat) den

/-- Whether `num / den` is below `2 ^ e`. -/
def isBelow (num den : Nat) (e : Int) : Bool :=
  if 0 ≤ e then num < den * Nat.pow 2 e.toNat else num * Nat.pow 2 (-e).toNat < den

/-- The magnitude nearest to a ratio, as mantissa and exponent; none when it lies beyond the largest
double. -/
def round? (num den : Nat) : Option (Nat × Int) :=
  if num = 0 then some (0, 0)
  else
    let guess : Int := (num.log2 : Int) - den.log2 - 52
    let fitted := if isBelow num den (guess + 52) then guess - 1 else guess
    let e := max fitted (-1074)
    let m := roundAt num den e
    let (m, e) := if m = Nat.pow 2 53 then (Nat.pow 2 52, e + 1) else (m, e)
    if m = 0 then some (0, 0)
    else if 971 < e then none
    else some (m, e)

/-- The double nearest to a power of ten. -/
def powerOfTen (k : Nat) : Nat × Int :=
  (round? (Nat.pow 10 k) 1).getD (0, 0)

/-- One multiplication of doubles. -/
def mul? (x y : Nat × Int) : Option (Nat × Int) :=
  let (a, b) := ratio x.1 x.2
  let (c, d) := ratio y.1 y.2
  round? (a * c) (b * d)

/-- One division of doubles, by a divisor other than zero. -/
def div? (x y : Nat × Int) : Option (Nat × Int) :=
  let (a, b) := ratio x.1 x.2
  let (c, d) := ratio y.1 y.2
  round? (a * d) (b * c)

/-- Divides by the largest power of ten while the exponent is below its range; a magnitude below
`2 ^ 64` is zero after three such steps. -/
def shrink : Nat → Nat × Int → Int → (Nat × Int) × Int
  | 0, x, e => (x, e)
  | steps + 1, x, e =>
    if -308 ≤ e ∨ x.1 = 0 then (x, e)
    else shrink steps ((div? x (powerOfTen 308)).getD (0, 0)) (e + 308)

/-- The magnitude read from a significand and a power of ten: the significand is rounded to a
double, then scaled by the double nearest to the power of ten. None when it overflows. -/
def scaled? (significand : Nat) (exponent : Int) : Option (Nat × Int) :=
  (round? significand 1).bind fun x =>
    if 0 ≤ exponent then
      if exponent ≤ 308 then mul? x (powerOfTen exponent.toNat)
      else if x.1 = 0 then some x else none
    else
      let (x, exponent) := shrink 4 x exponent
      if x.1 = 0 then some x else div? x (powerOfTen (-exponent).toNat)

/-- The double read from a sign, a significand and a power of ten. -/
def ofDecimal? (negative : Bool) (significand : Nat) (exponent : Int) : Option Binary64 :=
  (scaled? significand exponent).map fun x => ⟨negative, x.1, x.2⟩

/-- Zero with a sign. -/
def zero (negative : Bool) : Binary64 := ⟨negative, 0, 0⟩

/-- The double nearest to `n * 10 ^ e`; none when it lies beyond the largest double. Magnitudes far
beyond all doubles are not looked at closely. -/
def nearest? (negative : Bool) (n : Nat) (e : Int) : Option Binary64 :=
  let size : Int := n.log2 * 30103 / 100000 + e
  if n = 0 ∨ size < -400 then some (zero negative)
  else if 400 < size then none
  else
    let (num, den) := if 0 ≤ e then (n * Nat.pow 10 e.toNat, 1) else (n, Nat.pow 10 (-e).toNat)
    (round? num den).map fun x => ⟨negative, x.1, x.2⟩

end Binary64

end CustomResource
