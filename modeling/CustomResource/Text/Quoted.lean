import CustomResource.Text.Digits
import CustomResource.Text.Hidden

/-!
# Quoted text

The form in which a message shows a text whose bounds must be visible: between double quotes, with
the quote, the backslash and every hidden character written as an escape.

## Main definitions

* `Quoted.escape`: how one character is written.
* `quoted`: the quoted form of a text.
-/

namespace CustomResource.Text

/-- How one character is written between the quotes. -/
def Quoted.escape (c : Char) : List Char :=
  if c = '"' then ['\\', '"']
  else if c = '\\' then ['\\', '\\']
  else if c = '\n' then ['\\', 'n']
  else if c = '\r' then ['\\', 'r']
  else if c = '\t' then ['\\', 't']
  else if c = '\x00' then ['\\', '0']
  else if isHidden c then ['\\', 'u', '\x7b'] ++ digitsOf 16 c.toNat ++ ['\x7d']
  else [c]

/-- The text between double quotes, with escapes. -/
def quoted (s : String) : String :=
  String.ofList ('"' :: s.toList.flatMap Quoted.escape ++ ['"'])

end CustomResource.Text
