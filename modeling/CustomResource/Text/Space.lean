/-!
# White space

The characters with the Unicode property `White_Space`.

## Main definitions

* `isSpace`: the property.
* `dropSpaces`, `trimmed`: a text without the white space at its start, or at both ends.
-/

namespace CustomResource.Text

/-- Whether a character has the property `White_Space`. -/
def isSpace (c : Char) : Bool :=
  let n := c.toNat
  (0x09 ≤ n && n ≤ 0x0D) || n == 0x20 || n == 0x85 || n == 0xA0 || n == 0x1680 ||
    (0x2000 ≤ n && n ≤ 0x200A) || n == 0x2028 || n == 0x2029 || n == 0x202F || n == 0x205F ||
    n == 0x3000

/-- The text without the white space at its start. -/
def dropSpaces (cs : List Char) : List Char :=
  cs.dropWhile isSpace

/-- The text without the white space at both ends. -/
def trimmed (cs : List Char) : List Char :=
  (dropSpaces (dropSpaces cs).reverse).reverse

end CustomResource.Text
