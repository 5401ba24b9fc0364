import CustomResource.Numeral.Binary64
import CustomResource.Text.Digits

/-!
# The shortest decimal text of a double

A double is written with the fewest decimal digits that read back as the same double; of several
such decimals the one nearest to it is taken.

## Main definitions

* `Binary64.shortest`: the digits and the power of ten of the leading one.
* `Binary64.render`: the text, positional for magnitudes from `1e-5` up to `1e16`.
* `Binary64.renderPositional`: the text without any exponent.
-/

namespace CustomResource

namespace Binary64

/-- The reals that round to a double: a centre and two bounds over one denominator. The bounds
belong to the interval when the mantissa is even. -/
structure Basin where
  low : Nat
  centre : Nat
  high : Nat
  den : Nat
  closed : Bool

/-- The basin of `m * 2 ^ e`. Just above a power of two the gap below is half the gap above. -/
def basin (m : Nat) (e : Int) : Basin :=
  let below := if m = Nat.pow 2 52 ∧ -1074 < e then 1 else 2
  let (unit, den) := ratio 1 (e - 2)
  { low := (4 * m - below) * unit
    centre := 4 * m * unit
    high := (4 * m + 2) * unit
    den := den
    closed := m % 2 = 0 }

/-- Whether `num / den`, in the units of the basin, rounds to its centre. -/
def Basin.holds (b : Basin) (num den : Nat) : Bool :=
  let (lo, x, hi) := (b.low * den, num * b.den, b.high * den)
  if b.closed then lo ≤ x && x ≤ hi else lo < x && x < hi

/-- `10 ^ k` as a ratio. -/
def tenPower (k : Int) : Nat × Nat :=
  if 0 ≤ k then (Nat.pow 10 k.toNat, 1) else (1, Nat.pow 10 (-k).toNat)

/-- The neighbour of the centre on the grid of multiples of `10 ^ k` that lies in the basin, the
nearer of two, the even one of two equally near. -/
def Basin.gridPoint? (b : Basin) (k : Int) : Option Nat :=
  let (tn, td) := tenPower k
  let n := b.centre * td / (b.den * tn)
  let low := b.holds (n * tn) td
  let high := b.holds ((n + 1) * tn) td
  if low && high then
    let twice := 2 * (b.centre * td)
    let middle := (2 * n + 1) * (b.den * tn)
    if twice < middle then some n
    else if middle < twice then some (n + 1)
    else if n % 2 = 0 then some n else some (n + 1)
  else if low && n ≠ 0 then some n
  else if high then some (n + 1)
  else none

/-- The power of ten of the leading digit of the centre. -/
def Basin.leading (b : Basin) : Int :=
  let guess : Int := ((b.centre.log2 : Int) - b.den.log2) * 30103 / 100000
  let reached (k : Int) : Bool :=
    let (tn, td) := tenPower k
    b.den * tn ≤ b.centre * td
  if reached (guess + 2) then guess + 2
  else if reached (guess + 1) then guess + 1
  else if reached guess then guess
  else guess - 1

/-- Tries the grids of one digit, two digits and so on, `count` of them at most. -/
def Basin.search (b : Basin) (lead : Int) : Nat → Nat → Nat × Int
  | 0, _ => (0, 0)
  | count + 1, digits =>
    match b.gridPoint? (lead - digits) with
    | some n => (n, lead - digits)
    | none => b.search lead count (digits + 1)

/-- The fewest digits that read back as the double, as a number without trailing zeros and the
power of ten of its last digit. -/
def shortest (x : Binary64) : Nat × Int :=
  if x.mantissa = 0 then (0, 0)
  else
    let b := basin x.mantissa x.exponent
    let (n, k) := b.search b.leading 18 0
    let ds := Text.digitsOf 10 n
    let kept := (ds.reverse.dropWhile (· = '0')).reverse
    (Text.decimalValue kept, k + (ds.length - kept.length : Nat))

/-- The exponent part of a text in scientific form. Its sign is always written. -/
def exponentText (k : Int) : String :=
  (if 0 ≤ k then "e+" else "e-") ++ Text.ofNat k.natAbs

/-- Digits of which the last one counts `10 ^ k`, with a point and at least one digit after it. -/
def positional (ds : List Char) (k : Int) : List Char :=
  let point : Int := ds.length + k
  if 0 ≤ k then ds ++ List.replicate k.toNat '0' ++ ['.', '0']
  else if 0 < point then ds.take point.toNat ++ '.' :: ds.drop point.toNat
  else '0' :: '.' :: List.replicate (-point).toNat '0' ++ ds

/-- Digits of which the last one counts `10 ^ k`, with a point after the first one, and the power of
ten of that one. -/
def scientific (ds : List Char) (k : Int) : List Char :=
  let tail := ds.drop 1
  ds.take 1 ++ (if tail.isEmpty then [] else '.' :: tail) ++
    (exponentText (ds.length + k - 1)).toList

/-- The sign of a double before the text of its magnitude. -/
def signed (x : Binary64) (body : List Char) : String :=
  (if x.negative then "-" else "") ++ String.ofList body

/-- The text of a double: positional for magnitudes from `1e-5` up to `1e16`, scientific beyond. -/
def render (x : Binary64) : String :=
  let (n, k) := x.shortest
  let ds := Text.digitsOf 10 n
  let point : Int := ds.length + k
  x.signed (if -5 < point ∧ point ≤ 16 then positional ds k else scientific ds k)

/-- The text of a double without any exponent. -/
def renderPositional (x : Binary64) : String :=
  let (n, k) := x.shortest
  x.signed (positional (Text.digitsOf 10 n) k)

end Binary64

end CustomResource
