import CustomResource.Text.Digits

/-!
# Durations

A duration counts nanoseconds. Its text uses the largest unit of which it holds at least one.

## Main definitions

* `Duration`: the type, with `ofSeconds`, `ofMillis`, `ofMicros`.
* `Duration.render`: the text, such as `61.05s`.
* `Duration.ceilMillis`: the instant, a whole number of milliseconds, at which a timer fires.
* `Duration.attainable`: as much of a duration as a timer can be set to.
-/

namespace CustomResource

/-- A span of time, or an instant as the span since the start. -/
structure Duration where
  nanos : Nat
  deriving DecidableEq, Repr, Inhabited

namespace Duration

/-- Whole seconds. -/
def ofSeconds (n : Nat) : Duration := ⟨n * 1000000000⟩

/-- Whole milliseconds. -/
def ofMillis (n : Nat) : Duration := ⟨n * 1000000⟩

/-- Whole microseconds. -/
def ofMicros (n : Nat) : Duration := ⟨n * 1000⟩

/-- No time at all. -/
def zero : Duration := ⟨0⟩

/-- The whole milliseconds in a duration. -/
def toMillis (d : Duration) : Nat := d.nanos / 1000000

/-- The whole microseconds in a duration. -/
def toMicros (d : Duration) : Nat := d.nanos / 1000

/-- The later of two instants. -/
def max (a b : Duration) : Duration := ⟨Nat.max a.nanos b.nanos⟩

instance : Add Duration := ⟨fun a b => ⟨a.nanos + b.nanos⟩⟩

instance : LE Duration := ⟨fun a b => a.nanos ≤ b.nanos⟩

instance : LT Duration := ⟨fun a b => a.nanos < b.nanos⟩

instance (a b : Duration) : Decidable (a ≤ b) := inferInstanceAs (Decidable (a.nanos ≤ b.nanos))

instance (a b : Duration) : Decidable (a < b) := inferInstanceAs (Decidable (a.nanos < b.nanos))

/-- Rounded up to a whole millisecond: timers know no smaller unit. -/
def ceilMillis (d : Duration) : Duration :=
  ⟨(d.nanos + 999999) / 1000000 * 1000000⟩

/-- The shorter of two durations. -/
def min (a b : Duration) : Duration := ⟨Nat.min a.nanos b.nanos⟩

/-- The longest time to which a timer can be set: thirty years of 365 days. Instants reach further,
and so do deadlines. -/
def longestTimer : Duration := .ofSeconds (30 * 365 * 86400)

/-- As much of a duration as a timer can be set to: a sleep that is longer ends after thirty years,
and so does the time between two checks. -/
def attainable (d : Duration) : Duration := d.min longestTimer

/-- A whole part and a fraction of `places` digits, without the zeros at its end. -/
def withFraction (whole places fraction : Nat) : String :=
  let ds := Text.fractionDigits places fraction
  Text.ofNat whole ++ (if ds.isEmpty then "" else "." ++ String.ofList ds)

/-- The text of a duration in the largest unit of which it holds at least one. -/
def render (d : Duration) : String :=
  let n := d.nanos
  if 1000000000 ≤ n then withFraction (n / 1000000000) 9 (n % 1000000000) ++ "s"
  else if 1000000 ≤ n then withFraction (n / 1000000) 6 (n % 1000000) ++ "ms"
  else if 1000 ≤ n then withFraction (n / 1000) 3 (n % 1000) ++ "µs"
  else Text.ofNat n ++ "ns"

end Duration

end CustomResource
