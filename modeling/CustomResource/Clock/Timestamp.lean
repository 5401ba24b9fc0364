import CustomResource.Clock.Calendar
import CustomResource.Text.Digits
import CustomResource.Text.Space

/-!
# Timestamps

Instants in the format of RFC 3339. A reader allows white space between the parts, any sign before
the year, and an offset written as `Z`, `UTC` or hours and minutes. An instant is written in UTC, to
the second.

## Main definitions

* `Timestamp`: an instant as the date and the time of day of UTC.
* `Timestamp.Fault`: why a text is no timestamp, with its wording.
* `Timestamp.ofText`: the instant that a text names.
* `Timestamp.seconds`: the seconds from the start of 1970 to an instant.
* `Timestamp.render`: the text of an instant; the fraction of its second is not written.
-/

namespace CustomResource

/-- An instant: its date and time of day in UTC. -/
structure Timestamp where
  date : Date
  time : TimeOfDay
  deriving DecidableEq, Repr

namespace Timestamp

/-- Why a text is no timestamp. -/
inductive Fault where
  | outOfRange
  | impossible
  | invalid
  | tooShort
  | tooLong
  deriving DecidableEq, Repr, Inhabited

/-- The wording of a fault. -/
def Fault.message : Fault → String
  | .outOfRange => "input is out of range"
  | .impossible => "no possible date and time matching input"
  | .invalid => "input contains invalid characters"
  | .tooShort => "premature end of input"
  | .tooLong => "trailing input"

/-! ### Reading -/

/-- A part of a timestamp: its value and the text after it. -/
abbrev Scan (α : Type) : Type := List Char → Except Fault (α × List Char)

/-- A number of one up to `most` digits that is at most `limit`. -/
def number (most limit : Nat) : Scan Nat := fun cs =>
  let ds := (cs.take most).takeWhile Text.isDigit
  if ds.isEmpty then .error (if cs.isEmpty then .tooShort else .invalid)
  else
    let n := Text.decimalValue ds
    if n ≤ limit then .ok (n, cs.drop ds.length) else .error .outOfRange

/-- A number of one or two digits between two bounds, after white space. -/
def twoDigits (low high : Nat) : Scan Nat := fun cs =>
  match number 2 high (Text.dropSpaces cs) with
  | .error f => .error f
  | .ok (n, rest) => if low ≤ n then .ok (n, rest) else .error .outOfRange

/-- A year, after white space: any number of digits after a sign, at most four without one. -/
def year : Scan Int := fun cs =>
  match Text.dropSpaces cs with
  | '-' :: rest => (number rest.length (Nat.pow 2 31) rest).map fun r => (-(r.1 : Int), r.2)
  | '+' :: rest => (number rest.length (Nat.pow 2 31 - 1) rest).map fun r => ((r.1 : Int), r.2)
  | rest => (number 4 9999 rest).map fun r => ((r.1 : Int), r.2)

/-- A separator, after white space. -/
def separator (c : Char) : List Char → Except Fault (List Char) := fun cs =>
  match Text.dropSpaces cs with
  | [] => .error .tooShort
  | d :: rest => if d = c then .ok rest else .error .invalid

/-- The fraction of a second in nanoseconds. Digits after the ninth count for nothing. -/
def fraction : Scan Nat
  | '.' :: rest =>
    match number 9 999999999 rest with
    | .error f => .error f
    | .ok (n, after) =>
      .ok (n * Nat.pow 10 (9 - (rest.length - after.length)), after.dropWhile Text.isDigit)
  | cs => .ok (0, cs)

/-- The letter or blank between date and time. -/
def dateEnd : List Char → Except Fault (List Char)
  | [] => .error .tooShort
  | c :: rest => if c = 't' ∨ c = 'T' ∨ c = ' ' then .ok rest else .error .invalid

/-- Two characters that are digits, as a number; `limit` is the greatest first digit allowed. -/
def digitPair (limit : Char) (cs : List Char) : Except Fault (Nat × List Char) :=
  match cs with
  | a :: b :: rest =>
    if Text.isDigit a ∧ Text.isDigit b then
      if a ≤ limit then .ok (Text.decimalValue [a, b], rest) else .error .outOfRange
    else .error .invalid
  | [a] => .error (if a.utf8Size < 2 then .tooShort else .invalid)
  | [] => .error .tooShort

/-- The offset from UTC in minutes, as hours, colons or blanks, and minutes after a sign. -/
def signedOffset (negative : Bool) : Scan Int := fun cs =>
  match digitPair '9' cs with
  | .error f => .error f
  | .ok (hours, rest) =>
    match digitPair '5' (rest.dropWhile fun c => c = ':' || Text.isSpace c) with
    | .error f => .error f
    | .ok (minutes, rest) =>
      let total : Int := hours * 60 + minutes
      .ok (if negative then -total else total, rest)

/-- Whether a text begins with `UTC` in letters of any case. -/
def startsWithUtc : List Char → Bool
  | u :: t :: c :: _ => u.toUpper = 'U' && t.toUpper = 'T' && c.toUpper = 'C'
  | _ => false

/-- The offset from UTC in minutes, after white space. -/
def offset : Scan Int := fun cs =>
  let cs := Text.dropSpaces cs
  if startsWithUtc cs then .ok (0, cs.drop 3)
  else
    match cs with
    | [] => .error .tooShort
    | c :: rest =>
      if c = 'Z' ∨ c = 'z' then .ok (0, rest)
      else if c = '+' then signedOffset false rest
      else if c = '-' ∨ c = '−' then signedOffset true rest
      else .error .invalid

/-- The instant at a local date and time of day with an offset of less than a day. -/
def ofLocal (date : Date) (time : TimeOfDay) (offset : Int) : Except Fault Timestamp :=
  if offset.natAbs < 1440 then
    let (time, days) := time.minusMinutes offset
    let date? := if days < 0 then date.previous? else if 0 < days then date.next? else some date
    match date? with
    | some date => .ok { date, time }
    | none => .error .impossible
  else .error .outOfRange

/-- The instant that a text names. -/
def ofChars (cs : List Char) : Except Fault Timestamp := do
  let (y, cs) ← year cs
  let cs ← separator '-' cs
  let (mo, cs) ← twoDigits 1 12 cs
  let cs ← separator '-' cs
  let (d, cs) ← twoDigits 1 31 cs
  let cs ← dateEnd cs
  let (h, cs) ← twoDigits 0 23 cs
  let cs ← separator ':' cs
  let (mi, cs) ← twoDigits 0 59 cs
  let cs ← separator ':' cs
  let (s, cs) ← twoDigits 0 60 cs
  let (ns, cs) ← fraction cs
  let (off, cs) ← offset cs
  if (Text.dropSpaces cs).isEmpty then
    match Date.ofParts? y mo d, TimeOfDay.ofParts? h mi s ns with
    | some date, some time => ofLocal date time off
    | _, _ => throw .outOfRange
  else throw .tooLong

/-- The instant that a text names. -/
def ofText (text : String) : Except Fault Timestamp :=
  ofChars text.toList

/-- The number of whole seconds from the start of 1970 to an instant. -/
def seconds (t : Timestamp) : Int :=
  86400 * t.date.dayNumber + t.time.secondOfDay

/-! ### Writing -/

/-- The text of a year: four digits, with a sign outside of the years 0 to 9999. -/
def renderYear (y : Int) : String :=
  if 0 ≤ y ∧ y ≤ 9999 then Text.padded 4 y.toNat
  else (if y < 0 then "-" else "+") ++ Text.padded 4 y.natAbs

/-- The text of an instant, in UTC and to the second. -/
def render (t : Timestamp) : String :=
  renderYear t.date.year ++ "-" ++ Text.padded 2 t.date.month ++ "-" ++ Text.padded 2 t.date.day ++
    "T" ++ Text.padded 2 t.time.hour ++ ":" ++ Text.padded 2 t.time.minute ++ ":" ++
    Text.padded 2 t.time.second ++ "Z"

end Timestamp

end CustomResource
