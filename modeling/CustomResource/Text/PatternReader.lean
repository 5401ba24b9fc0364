import CustomResource.Text.Digits
import CustomResource.Text.Pattern

/-!
# Reading patterns

The pattern that a text describes: characters, sets in brackets, groups, alternatives, repetitions,
edges and escapes. Settings in a group, or for the rest of one, change how these are meant.

## Main definitions

* `Text.Pattern.Manner`: how the signs of a pattern are meant.
* `Text.Pattern.Reader`: a reader of a part of a pattern.
* `Text.Pattern.ofText?`: the pattern that a text describes, if it describes one.
-/

namespace CustomResource.Text.Pattern

/-! ### Readers -/

/-- How the signs of a pattern are meant: letters of any case, edges of every line, dots for line
feeds too, carriage returns as ends of lines, ASCII alone, and blanks as no signs at all. -/
structure Manner where
  anyCase : Bool := false
  everyLine : Bool := false
  everyChar : Bool := false
  returns : Bool := false
  asciiOnly : Bool := false
  spaced : Bool := false
  deriving DecidableEq, Repr, Inhabited

/-- What is left to be read, how it is meant, and the names of groups before it. -/
structure Cursor where
  rest : List Char
  manner : Manner
  names : List String
  deriving Repr, Inhabited

/-- A reader of a part of a pattern. -/
abbrev Reader (α : Type) : Type := StateT Cursor Option α

namespace Reader

/-- The next character. -/
def peek : Reader (Option Char) := do
  return (← get).rest.head?

/-- Whether the characters that are left begin with some. -/
def startsWith (cs : List Char) : Reader Bool := do
  return cs.isPrefixOf (← get).rest

/-- Passes over some characters. -/
def advance (count : Nat) : Reader Unit :=
  modify fun c => { c with rest := c.rest.drop count }

/-- Passes over some characters, if they are next. -/
def accept (cs : List Char) : Reader Bool := do
  if ← startsWith cs then
    advance cs.length
    return true
  else return false

/-- Passes over a character, which has to be next. -/
def expect (c : Char) : Reader Unit := do
  if ← accept [c] then return () else failure

/-- The characters after blanks and comments. A comment goes from a number sign to the end of its
line. -/
def withoutBlanks : Bool → List Char → List Char
  | _, [] => []
  | true, c :: cs => withoutBlanks (c ≠ '\n') cs
  | false, c :: cs =>
    if isSpace c then withoutBlanks false cs
    else if c = '#' then withoutBlanks true cs
    else c :: cs

/-- Passes over blanks and comments, where they are no signs. -/
def skipBlanks : Reader Unit :=
  modify fun c => if c.manner.spaced then { c with rest := withoutBlanks false c.rest } else c

/-- Passes over white space. -/
def skipSpaces : Reader Unit :=
  modify fun c => { c with rest := dropSpaces c.rest }

/-- The next character, of which there has to be one. -/
def next : Reader Char := do
  match ← peek with
  | some c =>
    advance 1
    return c
  | none => failure

end Reader

open Reader

/-! ### Characters and escapes -/

/-- The signs of patterns. -/
def signs : List Char := "\\.+*?()|[]\x7b\x7d^$#&-~".toList

/-- Whether a character stands for itself after a backslash. -/
def isEscapable (c : Char) : Bool :=
  signs.contains c ||
    (c.toNat < 0x80 && !c.isAlphanum && c ≠ '<' && c ≠ '>')

/-- What an escape describes. -/
inductive Escape where
  | single (c : Char)
  | set (set : Chars)
  | edge (edge : Edge)
  deriving Repr, Inhabited

/-- The white space of ASCII. -/
def asciiSpace : Chars := .union (.range '\t' '\r') (.single ' ')

/-- The letters of ASCII. -/
def asciiLetter : Chars := .union (.range 'a' 'z') (.range 'A' 'Z')

/-- The letters and digits of ASCII. -/
def asciiAlnum : Chars := .union asciiLetter .digit

/-- The punctuation of ASCII. -/
def asciiPunct : Chars :=
  .union (.union (.range '!' '/') (.range ':' '@')) (.union (.range '[' '\x60') (.range '\x7b' '~'))

/-- The characters that a letter after a backslash stands for. -/
def letterSet (asciiOnly : Bool) : Char → Chars
  | 'd' => .digit
  | 's' => if asciiOnly then asciiSpace else .space
  | _ => if asciiOnly then .union asciiAlnum (.single '_') else .word

/-- The complement of a set. Of ASCII alone there is none. -/
def complement (set : Chars) : Reader Chars := do
  if (← get).manner.asciiOnly then failure else return .compl set

/-- A name in lower case without blanks, hyphens and underscores. -/
def plainName (cs : List Char) : String :=
  String.ofList ((cs.filter fun c => !isSpace c && c ≠ '-' && c ≠ '_').map Char.toLower)

/-- The properties of characters that are known by name. -/
def propertySet? (name : String) : Option Chars :=
  if ["l", "letter", "alphabetic", "alpha"].contains name then
    some (.diff .word (.union .digit (.single '_')))
  else if ["lu", "uppercaseletter", "uppercase", "upper"].contains name then
    some (.range 'A' 'Z')
  else if ["ll", "lowercaseletter", "lowercase", "lower"].contains name then
    some (.range 'a' 'z')
  else if ["n", "nd", "number", "decimalnumber", "digit"].contains name then some .digit
  else if ["p", "punctuation", "punct"].contains name then some asciiPunct
  else if ["z", "zs", "separator", "spaceseparator"].contains name then
    some (.diff .space (.union (.range '\t' '\r') (.single '\u0085')))
  else if ["whitespace", "space"].contains name then some .space
  else if name = "ascii" then some (.range '\x00' '\x7F')
  else if ["any", "assigned"].contains name then some (.compl .none)
  else none

/-- Reads the property after its letter. -/
def property : Reader Chars := do
  skipBlanks
  let c ← next
  if c = '\x7b' then
    let name := (← get).rest.takeWhile (· ≠ '\x7d')
    advance name.length
    expect '\x7d'
    match propertySet? (plainName name) with
    | some set => return set
    | none => failure
  else
    match propertySet? (plainName [c]) with
    | some set => return set
    | none => failure

/-- The character of a hexadecimal number. -/
def charOfHex (cs : List Char) : Reader Char := do
  let digits := cs.filterMap digitValue?
  let n := digits.foldl (fun n d => 16 * n + d) 0
  if cs = [] ∨ digits.length ≠ cs.length then failure
  else if n.isValidChar then return Char.ofNat n
  else failure

/-- Reads a hexadecimal number after its letter: digits in braces, or a fixed count of them. -/
def hexChar (count : Nat) : Reader Char := do
  skipBlanks
  if ← accept ['\x7b'] then
    let digits := (← get).rest.takeWhile (· ≠ '\x7d')
    advance digits.length
    expect '\x7d'
    charOfHex digits
  else
    let digits := (← get).rest.take count
    advance count
    if digits.length = count then charOfHex digits else failure

/-- The kinds of word edges that are named in braces. -/
def wordEdge? (name : List Char) : Option Edge :=
  if name = "start".toList then some .wordStart
  else if name = "end".toList then some .wordEnd
  else if name = "start-half".toList then some .afterNoWord
  else if name = "end-half".toList then some .beforeNoWord
  else none

/-- Reads the rest of a word edge: braces with a name, if they begin with a letter. -/
def wordEdge : Reader Edge := do
  match (← get).rest with
  | '\x7b' :: c :: _ =>
    if c.isAlpha || c = '-' then
      advance 1
      let name := (← get).rest.takeWhile fun c => c.isAlpha || c = '-'
      advance name.length
      expect '\x7d'
      match wordEdge? name with
      | some kind => return kind
      | none => failure
    else return .wordEdge
  | _ => return .wordEdge

/-- Reads an escape after its backslash. -/
def escape : Reader Escape := do
  let asciiOnly := (← get).manner.asciiOnly
  let c ← next
  if c = 'x' then return .single (← hexChar 2)
  else if c = 'u' then return .single (← hexChar 4)
  else if c = 'U' then return .single (← hexChar 8)
  else if c = 'p' then return .set (← property)
  else if c = 'P' then return .set (← complement (← property))
  else if ['d', 's', 'w'].contains c then return .set (letterSet asciiOnly c)
  else if ['D', 'S', 'W'].contains c then
    return .set (← complement (letterSet asciiOnly c.toLower))
  else if isEscapable c then return .single c
  else
    match c with
    | 'a' => return .single '\x07'
    | 'f' => return .single '\x0C'
    | 't' => return .single '\t'
    | 'n' => return .single '\n'
    | 'r' => return .single '\r'
    | 'v' => return .single '\x0B'
    | 'A' => return .edge .textStart
    | 'z' => return .edge .textEnd
    | 'b' => return .edge (← wordEdge)
    | 'B' => return .edge .noWordEdge
    | '<' => return .edge .wordStart
    | '>' => return .edge .wordEnd
    | _ => failure

/-! ### Sets in brackets -/

/-- The sets that have a name inside of brackets. -/
def namedSet? (name : String) : Option Chars :=
  match name with
  | "alnum" => some asciiAlnum
  | "alpha" => some asciiLetter
  | "ascii" => some (.range '\x00' '\x7F')
  | "blank" => some (.union (.single '\t') (.single ' '))
  | "cntrl" => some (.union (.range '\x00' '\x1F') (.single '\x7F'))
  | "digit" => some .digit
  | "graph" => some (.range '!' '~')
  | "lower" => some (.range 'a' 'z')
  | "print" => some (.range ' ' '~')
  | "punct" => some asciiPunct
  | "space" => some asciiSpace
  | "upper" => some (.range 'A' 'Z')
  | "word" => some (.union asciiAlnum (.single '_'))
  | "xdigit" => some (.union .digit (.union (.range 'a' 'f') (.range 'A' 'F')))
  | _ => none

/-- The named set at the start of some characters, with what follows it. -/
def namedSetAt? (cs : List Char) : Option (Chars × List Char) :=
  match cs with
  | '[' :: ':' :: cs =>
    let negated := cs.head? = some '^'
    let cs := if negated then cs.drop 1 else cs
    let name := cs.takeWhile (· ≠ ':')
    match cs.drop name.length, namedSet? (String.ofList name) with
    | ':' :: ']' :: rest, some set =>
      some (if negated then .compl set else set, rest)
    | _, _ => none
  | _ => none

/-- Reads a part of a set: a character, or the set of an escape. -/
def setItem : Reader (Char ⊕ Chars) := do
  let c ← next
  if c = '\\' then
    match ← escape with
    | .single c => return .inl c
    | .set set => return .inr set
    | .edge _ => failure
  else return .inl c

/-- Reads a part of a set, or a range of characters. A hyphen before the closing bracket or another
hyphen makes no range. -/
def setRange : Reader Chars := do
  let first ← setItem
  skipBlanks
  let spaced := (← get).manner.spaced
  match (← get).rest with
  | [] => failure
  | '-' :: rest =>
    let after := (if spaced then withoutBlanks false rest else rest).head?
    if after = some ']' ∨ after = some '-' then
      match first with
      | .inl c => return .single c
      | .inr set => return set
    else
      advance 1
      skipBlanks
      match first, ← setItem with
      | .inl low, .inl high => if low ≤ high then return .range low high else failure
      | _, _ => failure
  | _ =>
    match first with
    | .inl c => return .single c
    | .inr set => return set

/-- A set as it is meant: where case does not count, with the other cases. -/
def folded (set : Chars) : Reader Chars := do
  if (← get).manner.anyCase then return .anyCase set else return set

/-- The set of two operands, of which the first has perhaps not been given. -/
def combined (first : Option ((Chars → Chars → Chars) × Chars)) (second : Chars) :
    Reader Chars := do
  match first with
  | some (operation, first) => return operation (← folded first) (← folded second)
  | none => return second

/-- Passes over hyphens at the start of a set, and tells whether there were any. -/
def leadingHyphens : Nat → Reader Bool
  | 0 => return false
  | fuel + 1 => do
    if ← accept ['-'] then
      skipBlanks
      let _ ← leadingHyphens fuel
      return true
    else return false

/-- Reads the start of a set after its bracket: whether it is a complement, and characters that
count as signs only later. -/
def setStart : Reader (Bool × Chars) := do
  skipBlanks
  let negated ← accept ['^']
  skipBlanks
  if ← leadingHyphens (← get).rest.length then return (negated, .single '-')
  else if ← accept [']'] then return (negated, .single ']')
  else return (negated, .none)

/-- Reads the rest of a set up to its closing bracket, after a first operand and the parts of the
second one. -/
def setRest : Nat → Option ((Chars → Chars → Chars) × Chars) → Chars → Reader Chars
  | 0, _, _ => failure
  | fuel + 1, first, parts => do
    skipBlanks
    if ← accept [']'] then combined first parts
    else if ← accept ['&', '&'] then setRest fuel (some (.inter, ← combined first parts)) .none
    else if ← accept ['-', '-'] then setRest fuel (some (.diff, ← combined first parts)) .none
    else if ← accept ['~', '~'] then setRest fuel (some (.symmDiff, ← combined first parts)) .none
    else
      match namedSetAt? (← get).rest with
      | some (set, rest) =>
        modify fun c => { c with rest }
        setRest fuel first (.union parts set)
      | none =>
        if ← accept ['['] then
          let (negated, start) ← setStart
          let set ← folded (← setRest fuel none start)
          let set ← if negated then complement set else pure set
          setRest fuel first (.union parts set)
        else setRest fuel first (.union parts (← setRange))

/-- Reads a set after its bracket. -/
def bracketed (fuel : Nat) : Reader Chars := do
  let (negated, start) ← setStart
  let set ← folded (← setRest fuel none start)
  if negated then complement set else return set

/-! ### Repetitions -/

/-- The greatest size of a pattern that is repeated. -/
def greatestSize : Nat := 300000

/-- A pattern between two numbers of times; without the second one any number from the first on. -/
def repeated (p : Pattern) (low : Nat) : Option Nat → Reader Pattern
  | some high =>
    if greatestSize < p.size * high then failure
    else return (p.times low).followedBy (p.atMost (high - low))
  | none =>
    if greatestSize < p.size * low then failure
    else return (p.times low).followedBy (.many p)

/-- Reads a decimal number, with white space around it. -/
def decimal : Reader (Option Nat) := do
  skipSpaces
  let digits := (← get).rest.takeWhile isDigit
  advance digits.length
  skipSpaces
  if digits = [] then return none
  else if decimalValue digits < Nat.pow 2 32 then return some (decimalValue digits)
  else failure

/-- Reads the numbers of a repetition after its brace. -/
def bounds : Reader (Nat × Option Nat) := do
  skipBlanks
  match ← decimal with
  | none => failure
  | some low =>
    if ← accept [','] then
      skipBlanks
      if ← accept ['\x7d'] then return (low, none)
      else
        match ← decimal with
        | none => failure
        | some high =>
          expect '\x7d'
          if low ≤ high then return (low, some high) else failure
    else
      expect '\x7d'
      return (low, some low)

/-! ### Groups -/

/-- Whether a character may stand in the name of a group. -/
def isNameChar (first : Bool) (c : Char) : Bool :=
  let letter := if c.toNat < 0x80 then c.isAlpha else isWordChar c
  c = '_' || letter || (!first && (isDigit c || c = '.' || c = '[' || c = ']'))

/-- Reads the name of a group after its bracket. A name may be given once. -/
def groupName : Reader Unit := do
  let name := (← get).rest.takeWhile (· ≠ '>')
  advance name.length
  expect '>'
  let text := String.ofList name
  if (← get).names.contains text then failure
  else
    match name with
    | [] => failure
    | c :: cs =>
      if isNameChar true c && cs.all (isNameChar false) then
        modify fun cursor => { cursor with names := text :: cursor.names }
      else failure

/-- A manner with one setting changed, if there is one of that letter. -/
def Manner.set? (m : Manner) (letter : Char) (value : Bool) : Option Manner :=
  match letter with
  | 'i' => some { m with anyCase := value }
  | 'm' => some { m with everyLine := value }
  | 's' => some { m with everyChar := value }
  | 'R' => some { m with returns := value }
  | 'u' => some { m with asciiOnly := !value }
  | 'x' => some { m with spaced := value }
  | 'U' => some m
  | _ => none

/-- Reads settings up to the sign that ends them: a colon begins a group, and a bracket leaves them
for the rest of the present one. Each letter may be given once; those after a hyphen are taken
back, of which there has to be one. -/
def settings : Manner → (negated dangling : Bool) → (seen : List Char) → List Char →
    Option (Manner × Bool × List Char)
  | _, _, _, _, [] => none
  | m, negated, dangling, seen, c :: rest =>
    if c = ':' then if dangling then none else some (m, true, rest)
    else if c = ')' then if dangling ∨ seen = [] then none else some (m, false, rest)
    else if seen.contains c then none
    else if c = '-' then settings m true true (c :: seen) rest
    else
      match m.set? c (!negated) with
      | some m => settings m negated false (c :: seen) rest
      | none => none

/-- Reads what follows the opening bracket of a group, and tells how what is in it is meant. None if
it was but settings for the rest of the present group. -/
def opening : Reader (Option Manner) := do
  skipBlanks
  let manner := (← get).manner
  if ← ["?=", "?!", "?<=", "?<!"].anyM fun cs => startsWith cs.toList then failure
  else if ← accept "?P<".toList then
    groupName
    return some manner
  else if ← accept "?<".toList then
    groupName
    return some manner
  else if ← accept ['?'] then
    match settings manner false false [] (← get).rest with
    | none => failure
    | some (m, isGroup, rest) =>
      modify fun c => { c with rest }
      if isGroup then return some m
      else
        modify fun c => { c with manner := m }
        return none
  else return some manner

/-! ### Whole patterns -/

/-- The pattern of a character as it is meant. -/
def ofChar (c : Char) : Reader Pattern := do
  if (← get).manner.asciiOnly && 0x80 ≤ c.toNat then failure
  else return .chars (← folded (.single c))

/-- The pattern of a dot as it is meant: any character, unless it ends a line. -/
def dot : Reader Pattern := do
  let m := (← get).manner
  let ends : Chars :=
    if m.everyChar then .none
    else if m.returns then .union (.single '\n') (.single '\r')
    else .single '\n'
  return .chars (← complement ends)

/-- Reads a single sign or character. -/
def primitive : Reader Pattern := do
  let m := (← get).manner
  let c ← next
  if c = '\\' then
    match ← escape with
    | .single c => ofChar c
    | .set set => return .chars (← folded set)
    | .edge kind => return .edge kind
  else if c = '.' then dot
  else if c = '^' then
    return .edge (if !m.everyLine then .textStart else if m.returns then .returnLineStart
      else .lineStart)
  else if c = '$' then
    return .edge (if !m.everyLine then .textEnd else if m.returns then .returnLineEnd else .lineEnd)
  else ofChar c

/-- The pattern of some parts, the last of which comes first. Settings are no part. -/
def ofParts (parts : List (Option Pattern)) : Pattern :=
  row (parts.reverse.filterMap id)

/-- Repeats the last of some parts. A question mark after it does not matter. -/
def repeatLast (low : Nat) (high : Option Nat) :
    List (Option Pattern) → Reader (List (Option Pattern))
  | some p :: parts => do
    let _ ← accept ['?']
    return some (← repeated p low high) :: parts
  | _ => failure

/-- Reads the rest of a group up to its end, after some alternatives and the parts of the present
one, the last of which come first. -/
def alternatives : Nat → List Pattern → List (Option Pattern) → Reader Pattern
  | 0, _, _ => failure
  | fuel + 1, done, parts => do
    skipBlanks
    match ← peek with
    | none => return oneOf (ofParts parts :: done).reverse
    | some c =>
      if c = ')' then return oneOf (ofParts parts :: done).reverse
      else if c = '|' then
        advance 1
        alternatives fuel (ofParts parts :: done) []
      else if c = '(' then
        advance 1
        let outer := (← get).manner
        match ← opening with
        | none => alternatives fuel done (none :: parts)
        | some inner =>
          modify fun c => { c with manner := inner }
          let group ← alternatives fuel [] []
          expect ')'
          modify fun c => { c with manner := outer }
          alternatives fuel done (some group :: parts)
      else if c = '[' then
        advance 1
        let set ← bracketed fuel
        alternatives fuel done (some (.chars set) :: parts)
      else if c = '?' then
        advance 1
        alternatives fuel done (← repeatLast 0 (some 1) parts)
      else if c = '*' then
        advance 1
        alternatives fuel done (← repeatLast 0 none parts)
      else if c = '+' then
        advance 1
        alternatives fuel done (← repeatLast 1 none parts)
      else if c = '\x7b' then
        advance 1
        let (low, high) ← bounds
        skipBlanks
        alternatives fuel done (← repeatLast low high parts)
      else
        let part ← primitive
        alternatives fuel done (some part :: parts)

/-- The pattern that a text describes, if any. Every step reads at least one character. -/
def ofText? (text : String) : Option Pattern :=
  let cs := text.toList
  match (alternatives (cs.length + 1) [] []).run ⟨cs, {}, []⟩ with
  | some (p, cursor) => if cursor.rest.isEmpty then some p else none
  | none => none

end CustomResource.Text.Pattern
