import CustomResource.Json.Reader
import CustomResource.Numeral.Binary64
import CustomResource.Text.Quoted

/-!
# Documents in flow style

A configuration is a YAML document. Documents in which every list and map stands in brackets look
like JSON, but more is asked of them: no key may be repeated, a key and its colon stand close
together, tabs do not begin a line, and some characters and escapes are refused. Doubles are rounded
correctly, and a number beyond them is a text.

## Main definitions

* `Yaml.Fault`: why a text is no such document, with its wording.
* `Yaml.Path`: the place of a value in a document.
* `Yaml.readValue`: one value and the text after it.
* `Yaml.ofText`: the value of a text, which may be empty.
-/

namespace CustomResource.Yaml

/-! ### Places and faults -/

/-- One step on the way to a value: the key or the index under which it stands. -/
inductive Step where
  | key (name : String)
  | index (n : Nat)
  deriving DecidableEq, Repr, Inhabited

/-- The place of a value, the last step first. -/
abbrev Path : Type := List Step

/-- The text of a place. The whole document is a point. -/
def Path.render : Path → String
  | [] => "."
  | [.key name] => name
  | .key name :: parent => Path.render parent ++ "." ++ name
  | .index n :: parent => Path.render parent ++ "[" ++ Text.ofNat n ++ "]"

/-- Why a text is no document in flow style. Of some faults it matters whether what they are in
begins with the text. -/
inductive Fault where
  | control (offset : Nat)
  | tab
  | escape (atStart : Bool)
  | farKey (atStart : Bool)
  | repeatedKey (place : Path) (key : String)
  | wideInteger (place : Path) (n : Int)
  | tooDeep
  | notFlow
  deriving DecidableEq, Repr, Inhabited

namespace Fault

/-- The name of the start of a text. -/
def startText (atStart : Bool) : String :=
  if atStart then " at position 0" else ""

/-- The place of a value before what is wrong with it. -/
def placed (place : Path) (text : String) : String :=
  if place.isEmpty then text else place.render ++ ": " ++ text

/-- The wording of a fault. -/
def message : Fault → String
  | .control offset =>
    "control characters are not allowed" ++
      (if offset = 0 then "" else " at position " ++ Text.ofNat offset)
  | .tab => "found character that cannot start any token, while scanning for the next token"
  | .escape atStart =>
    "found invalid Unicode character escape code, while parsing a quoted scalar" ++
      startText atStart
  | .farKey atStart =>
    "did not find expected ',' or '\x7d', while parsing a flow mapping" ++ startText atStart
  | .repeatedKey place key => placed place ("duplicate entry with key " ++ Text.quoted key)
  | .wideInteger place n =>
    placed place ("invalid type: integer `" ++ Text.ofInt n ++ "` as " ++
      (if n < 0 then "i128" else "u128") ++ ", expected any YAML value")
  | .tooDeep => "recursion limit exceeded"
  | .notFlow => "did not find expected node content"

end Fault

/-! ### Characters -/

/-- Whether a character may stand in a document. -/
def isAllowed (c : Char) : Bool :=
  let n := c.toNat
  n = 0x09 || n = 0x0A || n = 0x0D || (0x20 ≤ n && n ≤ 0x7E) || n = 0x85 ||
    (0xA0 ≤ n && n ≤ 0xFFFD && n ≠ 0xFEFF) || 0x10000 ≤ n

/-- Whether a character ends a line. -/
def isBreak (c : Char) : Bool :=
  c = '\n' || c = '\r' || c = '\u0085' || c = '\u2028' || c = '\u2029'

/-- The number of bytes before the first character that may not stand in a document. -/
def refusedAt? : Nat → List Char → Option Nat
  | _, [] => none
  | offset, c :: cs => if isAllowed c then refusedAt? (offset + c.utf8Size) cs else some offset

/-- The text from its first character other than a blank, outside of brackets. A tab may stand after
something else in its line only. -/
def skipOutside : Bool → List Char → Except Fault (List Char)
  | _, [] => .ok []
  | lineStart, c :: cs =>
    if c = ' ' then skipOutside lineStart cs
    else if c = '\n' ∨ c = '\r' then skipOutside true cs
    else if c = '\t' then if lineStart then .error .tab else skipOutside false cs
    else .ok (c :: cs)

/-! ### Strings -/

/-- What has been read of a string: its characters in reverse, and the blanks or the line ends after
them, also in reverse. -/
structure Folded where
  done : List Char
  blanks : List Char
  breaks : List Char
  deriving Repr, Inhabited

namespace Folded

/-- Nothing has been read. -/
def start : Folded := ⟨[], [], []⟩

/-- What blanks and line ends become when something follows: one end of a line is a space. -/
def settled (f : Folded) : List Char :=
  match f.breaks.reverse with
  | [] => f.blanks ++ f.done
  | ['\n'] => ' ' :: f.done
  | '\n' :: more => more.reverse ++ f.done
  | breaks => breaks.reverse ++ f.done

/-- Goes on with a character that counts as it stands. -/
def push (f : Folded) (c : Char) : Folded := ⟨c :: f.settled, [], []⟩

/-- Goes on with a character as it is written. Blanks around the end of a line are lost. -/
def write (f : Folded) (c : Char) : Folded :=
  if c = ' ' ∨ c = '\t' then
    if f.breaks.isEmpty then { f with blanks := c :: f.blanks } else f
  else if isBreak c then
    let c := if c = '\u2028' ∨ c = '\u2029' then c else '\n'
    ⟨f.done, [], c :: f.breaks⟩
  else f.push c

/-- The string that has been read. -/
def text (f : Folded) : String := String.ofList f.settled.reverse

end Folded

/-- The rest of a string after its opening quote, and the text after it. Half a character of a pair
is refused. -/
def readString (atStart : Bool) : Folded → List Char → Except Fault (String × List Char)
  | _, [] => .error .notFlow
  | f, '"' :: rest => .ok (f.text, rest)
  | f, '\\' :: 'u' :: a :: b :: c :: d :: rest =>
    match Text.digitValue? a, Text.digitValue? b, Text.digitValue? c, Text.digitValue? d with
    | some a, some b, some c, some d =>
      let n := ((a * 16 + b) * 16 + c) * 16 + d
      if 0xD800 ≤ n ∧ n ≤ 0xDFFF then .error (.escape atStart)
      else readString atStart (f.push (Char.ofNat n)) rest
    | _, _, _, _ => .error .notFlow
  | f, '\\' :: c :: rest =>
    match Json.shortEscape? c with
    | some c => readString atStart (f.push c) rest
    | none => .error .notFlow
  | f, c :: rest => readString atStart (f.write c) rest

/-! ### Numbers -/

/-- Whether an integer fits into some bits, with a sign of its own or without one. -/
def fits (bits : Nat) (n : Int) : Bool :=
  if n < 0 then n.natAbs ≤ Nat.pow 2 (bits - 1) else n.natAbs < Nat.pow 2 bits

/-- The value of an integer. Up to 128 bits it has to fit into 64; a longer one is a double, or a
text if it lies beyond the doubles. -/
def integerValue (place : Path) (n : Int) (raw : List Char) : Except Fault Json :=
  if fits 64 n then .ok (.int n)
  else if fits 128 n then .error (.wideInteger place n)
  else
    match Binary64.nearest? (n < 0) n.natAbs 0 with
    | some x => .ok (.number (.float x))
    | none => .ok (.string (String.ofList raw))

/-- The value of a number, which is written in some characters. One beyond the doubles is a text. -/
def numberValue (place : Path) (p : Json.NumberParts) (raw : List Char) : Except Fault Json :=
  match p.fraction, p.exponent with
  | none, none =>
    let n : Int := Text.decimalValue p.whole
    integerValue place (if p.negative then -n else n) raw
  | fraction, exponent =>
    let digits := fraction.getD []
    let power : Int := match exponent with
      | some (true, ds) => -Text.decimalValue ds
      | some (false, ds) => Text.decimalValue ds
      | none => 0
    match Binary64.nearest? p.negative (Text.decimalValue (p.whole ++ digits))
      (power - digits.length) with
    | some x => .ok (.number (.float x))
    | none => .ok (.string (String.ofList raw))

/-- A number and the text after it. -/
def readNumber (place : Path) (cs : List Char) : Except Fault (Json × List Char) :=
  let negative := cs.head? = some '-'
  match Json.numberParts negative (if negative then cs.drop 1 else cs) with
  | .ok (parts, rest) =>
    (numberValue place parts (cs.take (cs.length - rest.length))).map fun value => (value, rest)
  | .error _ => .error .notFlow

/-! ### Values -/

/-- A value after a word that stands for it. -/
def readWord (word : String) (value : Json) (cs : List Char) : Except Fault (Json × List Char) :=
  if word.toList.isPrefixOf cs then .ok (value, cs.drop word.length) else .error .notFlow

/-- How far the colon may be from the start of its key. -/
def greatestKey : Nat := 1024

/-- A key and the text after its colon. Both stand in one line, not too far from each other. -/
def readKey (atStart : Bool) (cs : List Char) : Except Fault (String × List Char) :=
  match cs with
  | '"' :: rest => do
    let (key, rest) ← readString false .start rest
    match Json.skipBlanks rest with
    | ':' :: after =>
      let way := cs.take (cs.length - after.length - 1)
      if greatestKey < way.length ∨ way.any isBreak then throw (.farKey atStart)
      else return (key, after)
    | _ => throw .notFlow
  | _ => .error .notFlow

mutual

/-- The value at a place and the text after it. Lists and maps may be nested `depth` deep. -/
def readValue : Nat → Bool → Path → Nat → List Char → Except Fault (Json × List Char)
  | 0, _, _, _, _ => .error .notFlow
  | fuel + 1, atStart, place, depth, cs =>
    match Json.skipBlanks cs with
    | '"' :: rest =>
      (readString atStart .start rest).map fun (text, rest) => (.string text, rest)
    | '[' :: rest =>
      match depth, Json.skipBlanks rest with
      | 0, _ => .error .tooDeep
      | _, ']' :: rest => .ok (.array [], rest)
      | depth + 1, rest =>
        (readItems fuel place depth 0 rest).map fun (items, rest) => (.array items, rest)
    | '\x7b' :: rest =>
      match depth, Json.skipBlanks rest with
      | 0, _ => .error .tooDeep
      | _, '\x7d' :: rest => .ok (.object [], rest)
      | depth + 1, rest =>
        (readMembers fuel atStart place depth [] rest).map fun (members, rest) =>
          (.object members, rest)
    | 'n' :: rest => readWord "null" .null ('n' :: rest)
    | 't' :: rest => readWord "true" (.bool true) ('t' :: rest)
    | 'f' :: rest => readWord "false" (.bool false) ('f' :: rest)
    | rest => readNumber place rest

/-- The items of a list from an index on, and the text after the list. -/
def readItems : Nat → Path → Nat → Nat → List Char → Except Fault (List Json × List Char)
  | 0, _, _, _, _ => .error .notFlow
  | fuel + 1, place, depth, index, cs =>
    match readValue fuel false (.index index :: place) depth cs with
    | .error f => .error f
    | .ok (item, rest) =>
      match Json.skipBlanks rest with
      | ']' :: rest => .ok ([item], rest)
      | ',' :: rest =>
        (readItems fuel place depth (index + 1) rest).map fun (items, rest) =>
          (item :: items, rest)
      | _ => .error .notFlow

/-- The members of a map after those with some keys, and the text after the map. -/
def readMembers : Nat → Bool → Path → Nat → List String → List Char →
    Except Fault (List (String × Json) × List Char)
  | 0, _, _, _, _, _ => .error .notFlow
  | fuel + 1, atStart, place, depth, seen, cs =>
    match readKey atStart (Json.skipBlanks cs) with
    | .error f => .error f
    | .ok (key, rest) =>
      if seen.contains key then .error (.repeatedKey place key)
      else
        match readValue fuel false (.key key :: place) depth rest with
        | .error f => .error f
        | .ok (value, rest) =>
          match Json.skipBlanks rest with
          | '\x7d' :: rest => .ok ([(key, value)], rest)
          | ',' :: rest =>
            (readMembers fuel atStart place depth (key :: seen) rest).map fun (members, rest) =>
              ((key, value) :: members, rest)
          | _ => .error .notFlow

end

/-! ### Texts -/

/-- How deep lists and maps may be nested. -/
def greatestDepth : Nat := 128

/-- The characters of a text without a mark of their order at its start. -/
def unmarked (cs : List Char) : List Char :=
  if cs.head? = some '\uFEFF' then cs.drop 1 else cs

/-- The text after a value that stands alone, from its first character other than a blank. Blanks
that follow a word or a number belong to it, so that a tab may begin a line there. -/
def skipAfter (first : Char) (cs : List Char) : Except Fault (List Char) :=
  if first = '"' ∨ first = '[' ∨ first = '\x7b' then skipOutside false cs
  else .ok (Json.skipBlanks cs)

/-- The value of a text; none if it is empty. A step of the reader takes at least one character, so
that twice as many steps as characters are enough. -/
def ofText (text : String) : Except Fault (Option Json) := do
  let cs := unmarked text.toList
  match refusedAt? 0 cs with
  | some offset => throw (.control offset)
  | none =>
    match ← skipOutside true cs with
    | [] => return none
    | c :: rest =>
      let atStart := rest.length + 1 = cs.length
      let (value, rest) ← readValue (2 * cs.length + 2) atStart [] greatestDepth (c :: rest)
      match ← skipAfter c rest with
      | [] => return some value
      | _ => throw .notFlow

end CustomResource.Yaml
