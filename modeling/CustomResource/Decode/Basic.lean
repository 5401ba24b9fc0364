import CustomResource.Decode.Error
import CustomResource.Json.Reader

/-!
# Decoders

A decoder reads a value of one type from a document. It goes through the document in the order of
the text, and the first thing that it cannot use is its error. Lists and objects may be nested up to
a depth, which each of them lessens by one.

## Main definitions

* `Decoder`: the type.
* `Decoder.string`, `Decoder.bool`, `Decoder.int32`, `Decoder.int64`, `Decoder.timestamp`,
  `Decoder.json`: single values.
* `Decoder.list`, `Decoder.map`, `Decoder.optional`: lists, maps, and values that may be null.
* `Decoder.ofText`: the value of a whole text.
-/

namespace CustomResource

/-- Reads a value from a document, with a depth of nesting that is left. -/
abbrev Decoder (α : Type) : Type := Nat → Json.Node → Except DecodeError α

namespace Decoder

/-- The error of one who expects something else than he finds. A text that is at fault here is
reported first. -/
def mismatch (expected : String) : Json.Node → DecodeError
  | .broken f => .text f
  | .misspelt f => .text f
  | .null => .invalidType .null expected
  | .bool b => .invalidType (.bool b) expected
  | .number l =>
    match l.value with
    | .ok n => .invalidType (.number n) expected
    | .error f => .text f
  | .string l =>
    match l.value with
    | .ok s => .invalidType (.string s) expected
    | .error f => .text f
  | .array _ _ => .invalidType .sequence expected
  | .object _ _ => .invalidType .map expected

/-- Goes one level down: the depth that is left below, if there is any. -/
def descend : Nat → Except DecodeError Nat
  | depth + 2 => .ok (depth + 1)
  | _ => .error (.text .tooDeep)

/-- A fault of the text, if there is one, in place of a value. -/
def unlessFault {α : Type} (value : α) : Option Json.Fault → Except DecodeError α
  | some f => .error (.text f)
  | none => .ok value

/-- A string. -/
def string : Decoder String
  | _, .string ⟨.ok s, _⟩ => .ok s
  | _, node => .error (mismatch "a string" node)

/-- A truth value. -/
def bool : Decoder Bool
  | _, .bool b => .ok b
  | _, node => .error (mismatch "a boolean" node)

/-- An integer between two bounds. -/
def integer (low high : Int) (expected : String) : Decoder Int
  | _, .number ⟨.ok (.int n), _⟩ =>
    if low ≤ n ∧ n ≤ high then .ok n
    else .error (.invalidValue (.number (.int n)) expected)
  | _, node => .error (mismatch expected node)

/-- An integer of 32 bits with a sign. -/
def int32 : Decoder Int32 := fun depth node =>
  (integer (-2147483648) 2147483647 "i32" depth node).map Int32.ofInt

/-- An integer of 64 bits with a sign. -/
def int64 : Decoder Int64 := fun depth node =>
  (integer (-9223372036854775808) 9223372036854775807 "i64" depth node).map Int64.ofInt

/-- An integer of 16 bits without a sign. -/
def uint16 : Decoder Nat := fun depth node =>
  (integer 0 65535 "u16" depth node).map Int.toNat

/-- An integer of 32 bits without a sign. -/
def uint32 : Decoder Nat := fun depth node =>
  (integer 0 4294967295 "u32" depth node).map Int.toNat

/-- A number, as a double or an integer. -/
def number : Decoder Json.Number
  | _, .number ⟨.ok n, _⟩ => .ok n
  | _, node => .error (mismatch "f64" node)

/-- An instant. -/
def timestamp : Decoder Timestamp
  | _, .string ⟨.ok s, _⟩ => (Timestamp.ofText s).mapError .timestamp
  | _, node => .error (mismatch "an RFC 3339 formatted date and time string" node)

/-- A value that may be null. -/
def optional {α : Type} (decode : Decoder α) : Decoder (Option α)
  | _, .null => .ok none
  | depth, node => (decode depth node).map some

/-- The items of an array and its end. -/
def items {α : Type} (decode : Decoder α) (depth : Nat) :
    List Json.Node → Option Json.Fault → Except DecodeError (List α)
  | [], stop => unlessFault [] stop
  | node :: nodes, stop => do
    let item ← decode depth node
    let rest ← items decode depth nodes stop
    return item :: rest

/-- A list. -/
def list {α : Type} (decode : Decoder α) : Decoder (List α)
  | depth, .array nodes stop => do
    let depth ← descend depth
    items decode depth nodes stop
  | _, node => .error (mismatch "a sequence" node)

/-- The key of a member. -/
def key (lexeme : Json.Lexeme String) : Except DecodeError String :=
  lexeme.value.mapError .text

/-- The members of a map and its end, put into those read before. -/
def entries {α : Type} (decode : Decoder α) (depth : Nat) :
    List (Json.Lexeme String × Json.Node) → Option Json.Fault →
    List (String × α) → Except DecodeError (List (String × α))
  | [], stop, done => unlessFault done stop
  | (lexeme, node) :: members, stop, done => do
    let name ← key lexeme
    let value ← decode depth node
    entries decode depth members stop (Json.putSorted name value done)

/-- A map, in the order of its keys; of two values of one key the later one. -/
def map {α : Type} (decode : Decoder α) : Decoder (List (String × α))
  | depth, .object members stop => do
    let depth ← descend depth
    entries decode depth members stop []
  | _, node => .error (mismatch "a map" node)

mutual

/-- Any value. -/
def json : Nat → Json.Node → Except DecodeError Json
  | _, .null => .ok .null
  | _, .bool b => .ok (.bool b)
  | _, .number ⟨.ok n, _⟩ => .ok (.number n)
  | _, .string ⟨.ok s, _⟩ => .ok (.string s)
  | depth, .array nodes stop =>
    match descend depth with
    | .error e => .error e
    | .ok depth => (jsonItems depth nodes stop).map .array
  | depth, .object members stop =>
    match descend depth with
    | .error e => .error e
    | .ok depth => (jsonMembers depth members stop []).map .object
  | _, node => .error (mismatch "any valid JSON value" node)

/-- The items of an array of any values and its end. -/
def jsonItems : Nat → List Json.Node → Option Json.Fault → Except DecodeError (List Json)
  | _, [], stop => unlessFault [] stop
  | depth, node :: nodes, stop =>
    match json depth node with
    | .error e => .error e
    | .ok item => (jsonItems depth nodes stop).map (item :: ·)

/-- The members of an object of any values and its end, put into those read before. -/
def jsonMembers : Nat → List (Json.Lexeme String × Json.Node) →
    Option Json.Fault → List (String × Json) →
    Except DecodeError (List (String × Json))
  | _, [], stop, done => unlessFault done stop
  | depth, (lexeme, node) :: members, stop, done =>
    match key lexeme with
    | .error e => .error e
    | .ok name =>
      match json depth node with
      | .error e => .error e
      | .ok value => jsonMembers depth members stop (Json.putSorted name value done)

end

/-- The depth to which lists and objects of a text may be nested, one more than that. -/
def startDepth : Nat := 128

/-- The value of a document. Text after it is noticed last. -/
def ofDocument {α : Type} (decode : Decoder α) (doc : Json.Document) : Except DecodeError α := do
  let value ← decode startDepth doc.root
  if doc.trailing then throw (.text .trailingText) else return value

/-- The value of a whole text. -/
def ofText {α : Type} (decode : Decoder α) (text : String) : Except DecodeError α :=
  ofDocument decode (.ofText text)

/-- The value of a JSON value. -/
def ofJson {α : Type} (decode : Decoder α) (value : Json) : Except DecodeError α :=
  decode startDepth value.toNode

end Decoder

end CustomResource
