import CustomResource.Text.Hidden
import CustomResource.Text.Space

/-!
# Patterns

A pattern describes a set of texts. Beside characters it may ask for edges: places that are told
apart by the characters before and after them only. A pattern is looked for in a text character by
character: what may follow a character is again described by patterns, finitely many of them, so
nothing is ever tried twice.

## Main definitions

* `Text.Chars`: the sets of characters.
* `Text.Edge`: the kinds of edges.
* `Text.Pattern`: the patterns.
* `Text.Pattern.holdsEmpty`: whether a pattern holds at a place, of nothing.
* `Text.Pattern.residues`: what is left of a pattern after a character.
* `Text.Pattern.occursIn`: whether a pattern holds somewhere in a text.
-/

namespace CustomResource.Text

/-! ### Characters -/

/-- The other characters that differ from a character in case only: those of ASCII letters. -/
def otherCases (c : Char) : List Char :=
  if c = 'k' then ['K', '\u212A']
  else if c = 'K' then ['k', '\u212A']
  else if c = '\u212A' then ['k', 'K']
  else if c = 's' then ['S', '\u017F']
  else if c = 'S' then ['s', '\u017F']
  else if c = '\u017F' then ['s', 'S']
  else if c.isLower then [c.toUpper]
  else if c.isUpper then [c.toLower]
  else []

/-- Whether a character is part of a word. Beyond ASCII every visible character counts as one. -/
def isWordChar (c : Char) : Bool :=
  if c.toNat < 0x80 then c.isAlphanum || c = '_' else !isHidden c

/-- The sets of characters. -/
inductive Chars where
  | none
  | range (low high : Char)
  | digit
  | space
  | word
  | union (a b : Chars)
  | inter (a b : Chars)
  | diff (a b : Chars)
  | symmDiff (a b : Chars)
  | compl (a : Chars)
  | anyCase (a : Chars)
  deriving DecidableEq, Repr, Inhabited

namespace Chars

/-- The set of one character. -/
def single (c : Char) : Chars := .range c c

/-- Whether a set has a character. -/
def has (c : Char) : Chars → Bool
  | .none => false
  | .range low high => low ≤ c && c ≤ high
  | .digit => c.isDigit
  | .space => isSpace c
  | .word => isWordChar c
  | .union a b => a.has c || b.has c
  | .inter a b => a.has c && b.has c
  | .diff a b => a.has c && !b.has c
  | .symmDiff a b => a.has c != b.has c
  | .compl a => !a.has c
  | .anyCase a => a.has c || (otherCases c).any fun d => a.has d

end Chars

/-! ### Edges -/

/-- The kinds of edges. -/
inductive Edge where
  | textStart
  | textEnd
  | lineStart
  | lineEnd
  | returnLineStart
  | returnLineEnd
  | wordEdge
  | noWordEdge
  | wordStart
  | wordEnd
  | afterNoWord
  | beforeNoWord
  deriving DecidableEq, Repr, Inhabited

namespace Edge

/-- Whether there is a character, and it is part of a word. -/
def isWord (c : Option Char) : Bool := c.any isWordChar

/-- Whether a place between two characters is an edge of that kind. At the ends of the text there is
no character. A line ends at a line feed; in the return kinds also at a carriage return, but not
between the two. -/
def holds (before after : Option Char) : Edge → Bool
  | .textStart => before.isNone
  | .textEnd => after.isNone
  | .lineStart => before.all (· = '\n')
  | .lineEnd => after.all (· = '\n')
  | .returnLineStart => before.all fun c => c = '\n' || (c = '\r' && after != some '\n')
  | .returnLineEnd => after.all fun c => c = '\r' || (c = '\n' && before != some '\r')
  | .wordEdge => isWord before != isWord after
  | .noWordEdge => isWord before == isWord after
  | .wordStart => !isWord before && isWord after
  | .wordEnd => isWord before && !isWord after
  | .afterNoWord => !isWord before
  | .beforeNoWord => !isWord after

end Edge

/-! ### Patterns -/

/-- The patterns: of no text, of the empty text, of a character of a set, of an edge, of one text
after another, of either of two, and of any number of texts one after another. -/
inductive Pattern where
  | never
  | empty
  | chars (set : Chars)
  | edge (edge : Edge)
  | seq (a b : Pattern)
  | either (a b : Pattern)
  | many (a : Pattern)
  deriving DecidableEq, Repr, Inhabited

namespace Pattern

/-- One pattern after another. -/
def followedBy : Pattern → Pattern → Pattern
  | .never, _ => .never
  | _, .never => .never
  | .empty, b => b
  | a, .empty => a
  | a, b => .seq a b

/-- Some patterns one after another. -/
def row : List Pattern → Pattern
  | [] => .empty
  | [p] => p
  | p :: ps => p.followedBy (row ps)

/-- One of some patterns. -/
def oneOf : List Pattern → Pattern
  | [] => .never
  | [p] => p
  | p :: ps => .either p (oneOf ps)

/-- A pattern or nothing. -/
def perhaps (p : Pattern) : Pattern := .either p .empty

/-- A pattern that many times. -/
def times (p : Pattern) : Nat → Pattern
  | 0 => .empty
  | n + 1 => p.followedBy (p.times n)

/-- A pattern at most that many times. -/
def atMost (p : Pattern) : Nat → Pattern
  | 0 => .empty
  | n + 1 => (p.followedBy (p.atMost n)).perhaps

/-- How many parts a pattern has. -/
def size : Pattern → Nat
  | .seq a b => a.size + b.size + 1
  | .either a b => a.size + b.size + 1
  | .many a => a.size + 1
  | _ => 1

/-- Whether a pattern holds of nothing at a place between two characters. -/
def holdsEmpty (before after : Option Char) : Pattern → Bool
  | .never => false
  | .empty => true
  | .chars _ => false
  | .edge e => e.holds before after
  | .seq a b => a.holdsEmpty before after && b.holdsEmpty before after
  | .either a b => a.holdsEmpty before after || b.holdsEmpty before after
  | .many _ => true

/-- What is left of a pattern after a character that follows another one: the patterns one of which
has to hold of what comes next. -/
def residues (before : Option Char) (c : Char) : Pattern → List Pattern
  | .never => []
  | .empty => []
  | .chars set => if set.has c then [.empty] else []
  | .edge _ => []
  | .seq a b =>
    let first := (a.residues before c).map (·.followedBy b)
    if a.holdsEmpty before (some c) then first ++ b.residues before c else first
  | .either a b => a.residues before c ++ b.residues before c
  | .many a => (a.residues before c).map (·.followedBy (.many a))

/-- Whether a pattern holds from somewhere on in some characters, or one of the patterns that are
under way holds from their beginning. -/
def occursAfter (p : Pattern) (before : Option Char) (underWay : List Pattern) :
    List Char → Bool
  | [] => (p :: underWay).any (·.holdsEmpty before none)
  | c :: cs =>
    (p :: underWay).any (·.holdsEmpty before (some c)) ||
      p.occursAfter (some c) ((p :: underWay).flatMap (·.residues before c)).eraseDups cs

/-- Whether a pattern holds somewhere in a text. -/
def occursIn (p : Pattern) (text : String) : Bool :=
  p.occursAfter none [] text.toList

end Pattern

end CustomResource.Text
