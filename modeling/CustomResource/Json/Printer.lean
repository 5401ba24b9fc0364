import CustomResource.Json.Basic
import CustomResource.Numeral.Shortest

/-!
# The text of a JSON value

Values are written without blanks, members in their order. A string shows the quote, the backslash
and the control characters as escapes and all else as it is.

## Main definitions

* `Json.escape`: how a character of a string is written.
* `Json.chars`: the characters of a value before a given rest.
* `Json.render`: the text of a value.
-/

namespace CustomResource

namespace Json

/-- How one character of a string is written. -/
def escape (c : Char) : List Char :=
  if c = '"' then ['\\', '"']
  else if c = '\\' then ['\\', '\\']
  else if c = '\x08' then ['\\', 'b']
  else if c = '\x0c' then ['\\', 'f']
  else if c = '\n' then ['\\', 'n']
  else if c = '\r' then ['\\', 'r']
  else if c = '\t' then ['\\', 't']
  else if c.toNat < 0x20 then '\\' :: 'u' :: Text.paddedHex 4 c.toNat
  else [c]

/-- A string between its quotes, before `rest`. -/
def stringChars (s : String) (rest : List Char) : List Char :=
  '"' :: s.toList.flatMap escape ++ '"' :: rest

/-- The text of a number. -/
def Number.render : Number → String
  | .int n => Text.ofInt n
  | .float x => x.render

mutual

/-- The characters of a value before `rest`. -/
def chars : Json → List Char → List Char
  | .null, rest => 'n' :: 'u' :: 'l' :: 'l' :: rest
  | .bool true, rest => 't' :: 'r' :: 'u' :: 'e' :: rest
  | .bool false, rest => 'f' :: 'a' :: 'l' :: 's' :: 'e' :: rest
  | .number n, rest => n.render.toList ++ rest
  | .string s, rest => stringChars s rest
  | .array items, rest => '[' :: itemChars items true rest
  | .object members, rest => '\x7b' :: memberChars members true rest

/-- The remaining items of an array and its end. -/
def itemChars : List Json → Bool → List Char → List Char
  | [], _, rest => ']' :: rest
  | item :: items, first, rest =>
    (if first then [] else [',']) ++ item.chars (itemChars items false rest)

/-- The remaining members of an object and its end. -/
def memberChars : List (String × Json) → Bool → List Char → List Char
  | [], _, rest => '\x7d' :: rest
  | (key, value) :: members, first, rest =>
    (if first then [] else [',']) ++
      stringChars key (':' :: value.chars (memberChars members false rest))

end

/-- The text of a value. -/
def render (value : Json) : String :=
  String.ofList (value.chars [])

end Json

end CustomResource
