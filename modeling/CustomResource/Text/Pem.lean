import CustomResource.Text.Base64
import CustomResource.Text.Pieces
import CustomResource.Text.Space
import CustomResource.Text.Utf8

/-!
# Bytes between marks

Some bytes, such as those of a certificate, are passed on as a text in base 64 between two marks
that name what they are. A text may hold several sections of this kind, with anything between them.

## Main definitions

* `Pem.Section`: a section, as its two names and what stands between them.
* `Pem.sections`: the sections of some bytes.
* `Pem.Item`: what a section stands for.
* `Pem.Fault`: what is wrong with a section, with its wording and what is behind it.
* `Pem.parse`: what the sections of some bytes stand for.
-/

namespace CustomResource.Text.Pem

/-! ### Sections -/

/-- A section: the names in its two marks, the lines before the data, and the data. -/
structure Section where
  opening : List UInt8
  headers : List UInt8
  data : List UInt8
  closing : List UInt8
  deriving DecidableEq, Repr, Inhabited

/-- The bytes of a text. -/
def bytesOf (text : String) : List UInt8 := text.toUTF8.toList

/-- The bytes before and after the first occurrence of some. -/
def cut? (mark : List UInt8) : List UInt8 → Option (List UInt8 × List UInt8)
  | [] => if mark.isEmpty then some ([], []) else none
  | b :: bs =>
    if mark.isPrefixOf (b :: bs) then some ([], (b :: bs).drop mark.length)
    else (cut? mark bs).map fun (before, after) => (b :: before, after)

/-- The bytes from the first one on that is no white space. -/
def skipSpace (bytes : List UInt8) : List UInt8 :=
  bytes.dropWhile fun b => b = 0x20 || b = 0x09 || b = 0x0A || b = 0x0D

/-- The lines before the data and the data: an empty line stands between them. -/
def splitHeaders (payload : List UInt8) : List UInt8 × List UInt8 :=
  match cut? [0x0A, 0x0A] payload with
  | some parts => parts
  | none => (cut? [0x0D, 0x0A, 0x0D, 0x0A] payload).getD ([], payload)

/-- The first section of some bytes, and the bytes after it. -/
def section? (bytes : List UInt8) : Option (Section × List UInt8) := do
  let (_, bytes) ← cut? (bytesOf "-----BEGIN ") bytes
  let (opening, bytes) ← cut? (bytesOf "-----") bytes
  let (payload, bytes) ← cut? (bytesOf "-----END ") (skipSpace bytes)
  let (headers, data) := splitHeaders payload
  let (closing, bytes) ← cut? (bytesOf "-----") bytes
  return (⟨opening, headers, data, closing⟩, skipSpace bytes)

/-- The sections of some bytes, `fuel` of them at most. -/
def sectionsUpTo : Nat → List UInt8 → List Section
  | 0, _ => []
  | fuel + 1, bytes =>
    match section? bytes with
    | some (s, rest) => s :: sectionsUpTo fuel rest
    | none => []

/-- The sections of some bytes. Each of them takes at least one byte. -/
def sections (bytes : List UInt8) : List Section :=
  sectionsUpTo bytes.length bytes

/-! ### What sections stand for -/

/-- What a section stands for: some bytes and what they are. -/
structure Item where
  name : String
  content : List UInt8
  deriving DecidableEq, Repr, Inhabited

/-- What is wrong with a section. -/
inductive Fault where
  | notUtf8 (fault : Utf8Fault)
  | noOpening
  | noClosing
  | mismatch (opening closing : String)
  | data (fault : Base64.Fault)
  | header (line : String)
  deriving DecidableEq, Repr, Inhabited

namespace Fault

/-- The wording of a fault. -/
def message : Fault → String
  | .notUtf8 f => "invalid utf-8 value: " ++ f.message
  | .noOpening => "missing BEGIN tag"
  | .noClosing => "missing END tag"
  | .mismatch opening closing =>
    "mismatching BEGIN (\"" ++ opening ++ "\") and END (\"" ++ closing ++ "\") tags"
  | .data f => "invalid data: " ++ f.message .ofConfigurations
  | .header line => "invalid header: " ++ line

/-- The texts of what is behind a fault. -/
def causes : Fault → List String
  | .notUtf8 f => [f.message]
  | .data f => [f.message .ofConfigurations]
  | _ => []

end Fault

/-- The text of some bytes of a section. -/
def textOf (bytes : List UInt8) : Except Fault String :=
  (decodeUtf8 ⟨bytes.toArray⟩).mapError .notUtf8

/-- The lines of a text, without the ends of lines. -/
def linesOf (text : String) : List (List Char) :=
  let lines := (splitAt '\n' text.toList).map fun line =>
    if line.getLast? = some '\r' then line.dropLast else line
  if lines.getLast? = some [] then lines.dropLast else lines

/-- A text without the white space at its end. -/
def trimmedEnd (cs : List Char) : List Char :=
  (dropSpaces cs.reverse).reverse

/-- What a section stands for. -/
def Section.item (s : Section) : Except Fault Item := do
  let name ← textOf s.opening
  if name = "" then throw .noOpening
  let closing ← textOf s.closing
  if closing = "" then throw .noClosing
  if name ≠ closing then throw (.mismatch name closing)
  let data := String.ofList ((linesOf (← textOf s.data)).flatMap trimmedEnd)
  let content ← (Base64.decode .ofConfigurations (bytesOf data)).mapError .data
  match (linesOf (← textOf s.headers)).find? fun line => !line.contains ':' with
  | some line => throw (.header (String.ofList line))
  | none => return ⟨name, content⟩

/-- What the sections of some bytes stand for. -/
def parse (bytes : List UInt8) : Except Fault (List Item) :=
  (sections bytes).mapM Section.item

end CustomResource.Text.Pem
