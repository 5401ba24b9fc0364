import CustomResource.Json.Document
import CustomResource.Text.Digits

/-!
# Reading a text

The document of a text. Strings and numbers are read twice: once for their value, with every rule,
and once as text only, which fixes where the document goes on.

## Main definitions

* `Json.readString`, `Json.skipString`: the rest of a string after its opening quote.
* `Json.NumberParts`: a number as its runs of digits, and its value.
* `Json.readValue`: one value and the text after it.
* `Json.Document.ofText`: the document of a text.
-/

namespace CustomResource

namespace Json

/-- Whether the character may stand between the tokens of a text. -/
def isBlank (c : Char) : Bool :=
  c = ' ' || c = '\n' || c = '\t' || c = '\r'

/-- The text from its first token on. -/
def skipBlanks (cs : List Char) : List Char :=
  cs.dropWhile isBlank

/-! ### Strings -/

/-- The value of four hexadecimal digits and the text after them. Four bytes have to be left. -/
def hexEscape (cs : List Char) : Except Fault (Nat × List Char) :=
  let fault : Fault :=
    if 4 ≤ (cs.take 4).foldl (fun n c => n + c.utf8Size) 0 then .invalidEscape else .endOfString
  match cs with
  | a :: b :: c :: d :: rest =>
    match Text.digitValue? a, Text.digitValue? b, Text.digitValue? c, Text.digitValue? d with
    | some a, some b, some c, some d => .ok (((a * 16 + b) * 16 + c) * 16 + d, rest)
    | _, _, _, _ => .error fault
  | _ => .error fault

/-- The character that a backslash and one more character stand for. -/
def shortEscape? (c : Char) : Option Char :=
  if c = '"' then some '"'
  else if c = '\\' then some '\\'
  else if c = '/' then some '/'
  else if c = 'b' then some '\x08'
  else if c = 'f' then some '\x0c'
  else if c = 'n' then some '\n'
  else if c = 'r' then some '\r'
  else if c = 't' then some '\t'
  else none

/-- The second half of a character beyond the first plane, after a leading surrogate. -/
def trailingSurrogate (lead : Nat) : List Char → Except Fault (Char × List Char)
  | [] => .error .endOfString
  | '\\' :: [] => .error .endOfString
  | '\\' :: 'u' :: rest =>
    match hexEscape rest with
    | .error f => .error f
    | .ok (n, rest) =>
      if 0xDC00 ≤ n ∧ n ≤ 0xDFFF then
        .ok (Char.ofNat ((lead - 0xD800) * 0x400 + (n - 0xDC00) + 0x10000), rest)
      else .error .loneSurrogate
  | _ => .error .endOfSurrogatePair

/-- The character of an escape, after its backslash, and the text after it. -/
def readEscape : List Char → Except Fault (Char × List Char)
  | [] => .error .endOfString
  | 'u' :: rest =>
    match hexEscape rest with
    | .error f => .error f
    | .ok (n, rest) =>
      if 0xDC00 ≤ n ∧ n ≤ 0xDFFF then .error .loneSurrogate
      else if 0xD800 ≤ n ∧ n ≤ 0xDBFF then trailingSurrogate n rest
      else .ok (Char.ofNat n, rest)
  | c :: rest =>
    match shortEscape? c with
    | some c => .ok (c, rest)
    | none => .error .invalidEscape

/-- Passes over an escape, after its backslash. Surrogates may stand alone here. -/
def skipEscape : List Char → Except Fault (List Char)
  | [] => .error .endOfString
  | 'u' :: rest => (hexEscape rest).map (·.2)
  | c :: rest => if (shortEscape? c).isSome then .ok rest else .error .invalidEscape

/-- The characters of a string up to its closing quote, after those in `done`, and the text after
it. -/
def readStringWith : Nat → List Char → List Char → Except Fault (List Char × List Char)
  | 0, _, _ => .error .endOfString
  | _ + 1, _, [] => .error .endOfString
  | fuel + 1, done, c :: rest =>
    if c = '"' then .ok (done.reverse, rest)
    else if c = '\\' then
      match readEscape rest with
      | .error f => .error f
      | .ok (c, rest) => readStringWith fuel (c :: done) rest
    else if c.toNat < 0x20 then .error .controlCharacter
    else readStringWith fuel (c :: done) rest

/-- A string after its opening quote: its characters and the text after it. -/
def readString (cs : List Char) : Except Fault (List Char × List Char) :=
  readStringWith (cs.length + 1) [] cs

/-- Passes over the rest of a string, in at most `fuel` steps. -/
def skipStringWith : Nat → List Char → Except Fault (List Char)
  | 0, _ => .error .endOfString
  | _ + 1, [] => .error .endOfString
  | fuel + 1, c :: rest =>
    if c = '"' then .ok rest
    else if c = '\\' then
      match skipEscape rest with
      | .error f => .error f
      | .ok rest => skipStringWith fuel rest
    else if c.toNat < 0x20 then .error .controlCharacter
    else skipStringWith fuel rest

/-- Passes over a string after its opening quote. -/
def skipString (cs : List Char) : Except Fault (List Char) :=
  skipStringWith (cs.length + 1) cs

/-- A lexeme and the text after it, from its value and from what passing over it gives. The document
goes on where one who passes over it goes on. -/
def lexeme {α : Type} (value : Except Fault α) (rest : Except Fault (List Char)) :
    Lexeme α × List Char :=
  match rest with
  | .ok rest => (⟨value, none⟩, rest)
  | .error f => (⟨value, some f⟩, [])

/-- A string after its opening quote. -/
def stringLexeme (cs : List Char) : Lexeme String × List Char :=
  lexeme ((readString cs).map fun r => String.ofList r.1) (skipString cs)

/-! ### Numbers -/

/-- A number as written: its sign and its runs of digits. -/
structure NumberParts where
  negative : Bool
  whole : List Char
  fraction : Option (List Char)
  exponent : Option (Bool × List Char)
  deriving Repr

/-- A place of a number where a digit is missing: at the end of the text, or before another
character. A second digit after a leading zero is as bad as a missing one. -/
inductive DigitFault where
  | atEnd
  | atOther
  deriving DecidableEq, Repr

/-- A run of at least one digit and the text after it. -/
def digitRun (cs : List Char) : Except DigitFault (List Char × List Char) :=
  match cs.takeWhile Text.isDigit, cs.dropWhile Text.isDigit with
  | [], [] => .error .atEnd
  | [], _ => .error .atOther
  | ds, rest => .ok (ds, rest)

/-- The digits before the point: a zero stands alone. -/
def wholeRun (cs : List Char) : Except DigitFault (List Char × List Char) :=
  match digitRun cs with
  | .error f => .error f
  | .ok (ds, rest) =>
    match ds with
    | '0' :: _ :: _ => .error .atOther
    | _ => .ok (ds, rest)

/-- The digits after the point, if there is one. -/
def fractionRun : List Char → Except DigitFault (Option (List Char) × List Char)
  | '.' :: rest => (digitRun rest).map fun r => (some r.1, r.2)
  | cs => .ok (none, cs)

/-- The sign and the digits of the power of ten, if there is one. -/
def exponentRun : List Char → Except DigitFault (Option (Bool × List Char) × List Char)
  | c :: rest =>
    if c = 'e' ∨ c = 'E' then
      match rest with
      | '+' :: rest => (digitRun rest).map fun r => (some (false, r.1), r.2)
      | '-' :: rest => (digitRun rest).map fun r => (some (true, r.1), r.2)
      | rest => (digitRun rest).map fun r => (some (false, r.1), r.2)
    else .ok (none, c :: rest)
  | [] => .ok (none, [])

/-- The parts of a number and the text after it, after its sign. -/
def numberParts (negative : Bool) (cs : List Char) :
    Except DigitFault (NumberParts × List Char) := do
  let (whole, cs) ← wholeRun cs
  let (fraction, cs) ← fractionRun cs
  let (exponent, cs) ← exponentRun cs
  return (⟨negative, whole, fraction, exponent⟩, cs)

/-- Takes digits into a significand as long as it stays below `2 ^ 64`. The digits that are left
begin with the first one that does not fit. -/
def absorb : Nat → List Char → Nat × List Char
  | n, [] => (n, [])
  | n, d :: ds =>
    let next := 10 * n + (d.toNat - 48)
    if next < Nat.pow 2 64 then absorb next ds else (n, d :: ds)

/-- A number that has a point, an exponent or too many digits. Digits of the whole that do not fit
count as powers of ten, those of the fraction count for nothing; an exponent of `2 ^ 31` or more is
out of range, or zero if it is negative or nothing but zeros stands before it. -/
def NumberParts.toFloat (p : NumberParts) : Except Fault Binary64 :=
  let (n, left) := absorb 0 p.whole
  let digits := p.fraction.getD []
  let (n, unread) := absorb n digits
  let scale : Int := (left.length : Int) - ((digits.length : Int) - unread.length)
  let read (exponent : Int) : Except Fault Binary64 :=
    match Binary64.ofDecimal? p.negative n exponent with
    | some x => .ok x
    | none => .error .numberRange
  match p.exponent with
  | none => read scale
  | some (negativeExponent, ds) =>
    let e := Text.decimalValue ds
    if Nat.pow 2 31 ≤ e then
      if n ≠ 0 ∧ ¬ negativeExponent then .error .numberRange else .ok (Binary64.zero p.negative)
    else read (if negativeExponent then scale - e else scale + e)

/-- The value of a number. Without point and exponent it is an integer if 64 bits hold it; minus
zero is a double. -/
def NumberParts.value (p : NumberParts) : Except Fault Number :=
  let n := Text.decimalValue p.whole
  match p.fraction, p.exponent with
  | none, none =>
    if ¬ p.negative ∧ n < Nat.pow 2 64 then .ok (.int n)
    else if p.negative ∧ 0 < n ∧ n ≤ Nat.pow 2 63 then .ok (.int (-n))
    else p.toFloat.map .float
  | _, _ => p.toFloat.map .float

/-- A number after its sign. One who needs its value tells the end of the text from another
character, one who passes over it does not. -/
def numberLexeme (negative : Bool) (cs : List Char) : Lexeme Number × List Char :=
  match numberParts negative cs with
  | .ok (parts, rest) => lexeme parts.value (.ok rest)
  | .error .atEnd => lexeme (.error .endOfValue) (.error .invalidNumber)
  | .error .atOther => lexeme (.error .invalidNumber) (.error .invalidNumber)

/-! ### Values -/

/-- The rest of a word after its first letter. -/
def readWord (value : Node) : List Char → List Char → Node × List Char
  | [], rest => (value, rest)
  | _ :: _, [] => (.misspelt .endOfValue, [])
  | w :: word, c :: rest =>
    if c = w then readWord value word rest else (.misspelt .expectedIdent, [])

mutual

/-- One value and the text after it. Where the text has a fault the document ends, and the text
after it counts as empty. -/
def readValue : Nat → List Char → Node × List Char
  | 0, _ => (.broken .endOfValue, [])
  | fuel + 1, cs =>
    match skipBlanks cs with
    | [] => (.broken .endOfValue, [])
    | 'n' :: rest => readWord .null ['u', 'l', 'l'] rest
    | 't' :: rest => readWord (.bool true) ['r', 'u', 'e'] rest
    | 'f' :: rest => readWord (.bool false) ['a', 'l', 's', 'e'] rest
    | '"' :: rest =>
      let (s, rest) := stringLexeme rest
      (.string s, rest)
    | '-' :: rest =>
      let (n, rest) := numberLexeme true rest
      (.number n, rest)
    | '[' :: rest =>
      match skipBlanks rest with
      | [] => (.array [] (some .endOfArray), [])
      | ']' :: rest => (.array [] none, rest)
      | rest =>
        let (item, rest) := readValue fuel rest
        let ((items, stop), rest) := readItems fuel rest
        (.array (item :: items) stop, rest)
    | '\x7b' :: rest =>
      match skipBlanks rest with
      | [] => (.object [] (some .endOfObject), [])
      | '\x7d' :: rest => (.object [] none, rest)
      | '"' :: rest =>
        let (member, rest) := readMember fuel rest
        let ((members, stop), rest) := readMembers fuel rest
        (.object (member :: members) stop, rest)
      | _ => (.object [] (some .keyNotString), [])
    | c :: rest =>
      if Text.isDigit c then
        let (n, rest) := numberLexeme false (c :: rest)
        (.number n, rest)
      else (.broken .expectedValue, [])

/-- The items of an array after its first one, the fault that ends them, and the text after the
array. -/
def readItems : Nat → List Char → (List Node × Option Fault) × List Char
  | 0, _ => (([], some .endOfArray), [])
  | fuel + 1, cs =>
    match skipBlanks cs with
    | [] => (([], some .endOfArray), [])
    | ']' :: rest => (([], none), rest)
    | ',' :: rest =>
      match skipBlanks rest with
      | ']' :: _ => (([.broken .trailingComma], none), [])
      | rest =>
        let (item, rest) := readValue fuel rest
        let ((items, stop), rest) := readItems fuel rest
        ((item :: items, stop), rest)
    | _ => (([], some .expectedArrayEnd), [])

/-- A member of an object, after the opening quote of its key. -/
def readMember : Nat → List Char → (Lexeme String × Node) × List Char
  | 0, _ => ((⟨.error .endOfString, some .endOfString⟩, .broken .endOfObject), [])
  | fuel + 1, cs =>
    let (key, rest) := stringLexeme cs
    match skipBlanks rest with
    | [] => ((key, .broken .endOfObject), [])
    | ':' :: rest =>
      let (value, rest) := readValue fuel rest
      ((key, value), rest)
    | _ => ((key, .broken .expectedColon), [])

/-- The members of an object after its first one, what ends them, and the text after the object. -/
def readMembers : Nat → List Char →
    (List (Lexeme String × Node) × Option Fault) × List Char
  | 0, _ => (([], some .endOfObject), [])
  | fuel + 1, cs =>
    match skipBlanks cs with
    | [] => (([], some .endOfObject), [])
    | '\x7d' :: rest => (([], none), rest)
    | ',' :: rest =>
      match skipBlanks rest with
      | [] => (([], some .endOfValue), [])
      | '"' :: rest =>
        let (member, rest) := readMember fuel rest
        let ((members, stop), rest) := readMembers fuel rest
        ((member :: members, stop), rest)
      | '\x7d' :: _ => (([], some .trailingComma), [])
      | _ => (([], some .keyNotString), [])
    | _ => (([], some .expectedObjectEnd), [])

end

/-- The document of a text. A step of the reader takes at least one character, so that three times
as many steps as characters are enough. -/
def Document.ofChars (cs : List Char) : Document :=
  let (root, rest) := readValue (3 * cs.length + 3) cs
  { root, trailing := !(skipBlanks rest).isEmpty }

/-- The document of a text. -/
def Document.ofText (text : String) : Document :=
  .ofChars text.toList

end Json

end CustomResource
