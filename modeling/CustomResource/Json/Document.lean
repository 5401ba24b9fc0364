import CustomResource.Json.Basic

/-!
# Documents as read from a text

A document is as much of a JSON value as its text holds. Where the text stops being JSON the
document says so and ends. What is wrong with a text is thus known only to a reader that comes to
the place: a reader that needs another shape than it finds, on the way there, reports that first.

## Main definitions

* `Json.Fault`: what can be wrong with a text, with its wording.
* `Json.Lexeme`: a string or a number as read by one who needs its value and by one who skips it.
* `Json.Node`: a value of a document.
* `Json.Document`: a value and whether text follows it.
-/

namespace CustomResource

namespace Json

/-- What is wrong with a text at the place where it stops being JSON. -/
inductive Fault where
  | endOfValue
  | endOfString
  | endOfArray
  | endOfObject
  | expectedValue
  | expectedIdent
  | expectedColon
  | expectedArrayEnd
  | expectedObjectEnd
  | keyNotString
  | trailingComma
  | trailingText
  | invalidEscape
  | invalidNumber
  | numberRange
  | controlCharacter
  | loneSurrogate
  | endOfSurrogatePair
  | tooDeep
  deriving DecidableEq, Repr, Inhabited

/-- The wording of a fault. -/
def Fault.message : Fault → String
  | .endOfValue => "EOF while parsing a value"
  | .endOfString => "EOF while parsing a string"
  | .endOfArray => "EOF while parsing a list"
  | .endOfObject => "EOF while parsing an object"
  | .expectedValue => "expected value"
  | .expectedIdent => "expected ident"
  | .expectedColon => "expected `:`"
  | .expectedArrayEnd => "expected `,` or `]`"
  | .expectedObjectEnd => "expected `,` or `\x7d`"
  | .keyNotString => "key must be a string"
  | .trailingComma => "trailing comma"
  | .trailingText => "trailing characters"
  | .invalidEscape => "invalid escape"
  | .invalidNumber => "invalid number"
  | .numberRange => "number out of range"
  | .controlCharacter => "control character (\\u0000-\\u001F) found while parsing a string"
  | .loneSurrogate => "lone leading surrogate in hex escape"
  | .endOfSurrogatePair => "unexpected end of hex escape"
  | .tooDeep => "recursion limit exceeded"

/-- A string or a number of a text. Its value may be faulty (a surrogate that stands alone, a number
beyond the doubles) where its text is not; `broken` is the fault of the text itself, at which the
document ends. -/
structure Lexeme (α : Type) where
  value : Except Fault α
  broken : Option Fault
  deriving Repr

/-- A lexeme without fault. -/
def Lexeme.ofValue {α : Type} (value : α) : Lexeme α := ⟨.ok value, none⟩

/-- Whether the fault is that the text ends too early. -/
def Fault.isEnd : Fault → Bool
  | .endOfValue => true
  | .endOfString => true
  | .endOfArray => true
  | .endOfObject => true
  | _ => false

/-- How one who passes over an item words its absence: a comma and a bracket are no value. -/
def Fault.ofSkippedItem : Fault → Fault
  | .trailingComma => .expectedValue
  | f => f

/-- How one who passes over an object words the end of its members. -/
def Fault.ofSkippedMembers : Fault → Fault
  | .trailingComma => .keyNotString
  | .endOfValue => .endOfObject
  | f => f

/-- A value of a document. The lists of an array and of an object end with `stop` where the text
does not close them. A value is `broken` where the text has none, and `misspelt` where a word begins
that is none of `null`, `true` and `false`. -/
inductive Node where
  | broken (fault : Fault)
  | misspelt (fault : Fault)
  | null
  | bool (value : Bool)
  | number (lexeme : Lexeme Number)
  | string (lexeme : Lexeme String)
  | array (items : List Node) (stop : Option Fault)
  | object (members : List (Lexeme String × Node)) (stop : Option Fault)
  deriving Inhabited

/-- A document: its value, and whether anything but blanks follows it. -/
structure Document where
  root : Node
  trailing : Bool
  deriving Inhabited

/-- Whether a value is null. -/
def Node.isNull : Node → Bool
  | .null => true
  | _ => false

mutual

/-- Passes over a value. Strings and numbers are checked as text only. -/
def Node.skip : Node → Except Fault Unit
  | .broken f => .error f.ofSkippedItem
  | .misspelt f => .error f
  | .null => .ok ()
  | .bool _ => .ok ()
  | .number l => match l.broken with | some f => .error f | none => .ok ()
  | .string l => match l.broken with | some f => .error f | none => .ok ()
  | .array items stop => Node.skipItems items stop
  | .object members stop => Node.skipMembers members stop

/-- Passes over the items of an array and its end. -/
def Node.skipItems : List Node → Option Fault → Except Fault Unit
  | [], some f => .error f
  | [], none => .ok ()
  | item :: items, stop =>
    match item.skip with
    | .error f => .error f
    | .ok () => Node.skipItems items stop

/-- Passes over the members of an object and its end. -/
def Node.skipMembers : List (Lexeme String × Node) → Option Fault → Except Fault Unit
  | [], some f => .error f.ofSkippedMembers
  | [], none => .ok ()
  | (key, value) :: members, stop =>
    match key.broken with
    | some f => .error f
    | none =>
      match value.skip with
      | .error f => .error f
      | .ok () => Node.skipMembers members stop

end

mutual

/-- The document of a value. -/
def toNode : Json → Node
  | .null => .null
  | .bool b => .bool b
  | .number n => .number (.ofValue n)
  | .string s => .string (.ofValue s)
  | .array items => .array (itemNodes items) none
  | .object members => .object (memberNodes members) none

/-- The documents of the items of an array. -/
def itemNodes : List Json → List Node
  | [] => []
  | item :: items => item.toNode :: itemNodes items

/-- The documents of the members of an object. -/
def memberNodes : List (String × Json) → List (Lexeme String × Node)
  | [] => []
  | (key, value) :: members => (.ofValue key, value.toNode) :: memberNodes members

end

end Json

end CustomResource
