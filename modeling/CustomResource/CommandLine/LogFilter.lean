import CustomResource.Program.Basic
import CustomResource.Text.PatternReader
import CustomResource.Text.Pieces

/-!
# Filtering messages

Which messages are shown. A filter is a list of rules, separated by commas: a level, which holds for
every part of the program, or the beginning of the names of some parts, with a level after an equals
sign. The longest beginning that fits decides. After a slash a pattern may stand that messages have
to match.

## Main definitions

* `LogFilter`: a filter.
* `LogFilter.ofText`: the filter that a text describes.
* `LogFilter.admits`: whether a message of a part of the program is shown.
-/

namespace CustomResource

/-- How important a level is: the most important one counts 1. -/
def LogLevel.rank : LogLevel → Nat
  | .error => 1
  | .warn => 2
  | .info => 3
  | .debug => 4

namespace LogFilter

/-- A rule: the beginning of the names of some parts, or of no part in particular, and the least
important rank that is shown there. -/
structure Rule where
  beginning : Option String
  rank : Nat
  deriving DecidableEq, Repr, Inhabited

/-- The words for ranks, from the one that shows nothing on. -/
def words : List String := ["off", "error", "warn", "info", "debug", "trace"]

/-- The rank that shows everything. -/
def everything : Nat := 5

/-- The rank of a word in letters of any case. -/
def rank? (word : String) : Option Nat :=
  words.findIdx? (· = String.ofList (word.toList.map Char.toLower))

/-- The rule in a text: a level alone, a beginning alone, or both. None if the level is no level. -/
def rule? (text : String) : Option Rule :=
  match (Text.splitAt '=' text.toList).map String.ofList with
  | [word] =>
    match rank? word with
    | some rank => some ⟨none, rank⟩
    | none => some ⟨some word, everything⟩
  | [beginning, word] =>
    let word := String.ofList (Text.trimmed word.toList)
    if word = "" then some ⟨some beginning, everything⟩
    else (rank? word).map (⟨some beginning, ·⟩)
  | _ => none

/-- Adds a rule, in place of one with the same beginning. -/
def put (rule : Rule) : List Rule → List Rule
  | [] => [rule]
  | other :: rest =>
    if other.beginning = rule.beginning then rule :: rest else other :: put rule rest

end LogFilter

/-- Which messages are shown: what the rules admit, and of these what matches the pattern. -/
structure LogFilter where
  rules : List LogFilter.Rule
  pattern : Option Text.Pattern := none
  deriving DecidableEq, Repr, Inhabited

namespace LogFilter

/-- The filter that is used unless another one is given. -/
def standard : LogFilter := ⟨[⟨none, 3⟩], none⟩

/-- The filter of some rules and a pattern. Without any rule only errors are shown. -/
def ofRules (rules : List Rule) (pattern : Option Text.Pattern) : LogFilter :=
  match rules.foldl (fun done rule => put rule done) [] with
  | [] => ⟨[⟨none, 1⟩], pattern⟩
  | rules => ⟨rules, pattern⟩

/-- The rules in some characters, separated by commas. -/
def rulesIn (cs : List Char) : List Rule :=
  (((Text.splitAt ',' cs).map Text.trimmed).filter (· ≠ [])).filterMap fun part =>
    rule? (String.ofList part)

/-- The filter that a text describes. What stands after a slash is a pattern, if it can be read as
one; with a second slash nothing in the text counts. -/
def ofText (text : String) : LogFilter :=
  match Text.splitAt '/' text.toList with
  | [rules] => ofRules (rulesIn rules) none
  | [rules, pattern] => ofRules (rulesIn rules) (Text.Pattern.ofText? (String.ofList pattern))
  | _ => ofRules [] none

/-- The size of the beginning that a rule asks for. -/
def Rule.weight (r : Rule) : Nat := (r.beginning.getD "").utf8ByteSize

/-- Whether a rule is about a part. -/
def Rule.isAbout (part : String) (r : Rule) : Bool := r.beginning.all fun b => part.startsWith b

/-- The rule that decides about a part: the one with the longest beginning, the later of two. -/
def decisive? (part : String) : List Rule → Option Rule
  | [] => none
  | rule :: rest =>
    match decisive? part rest with
    | some other =>
      if rule.isAbout part && other.weight < rule.weight then some rule else some other
    | none => if rule.isAbout part then some rule else none

/-- Whether a message of a part of the program is shown. -/
def admits (f : LogFilter) (part : String) (level : LogLevel) (message : String) : Bool :=
  match decisive? part f.rules with
  | some rule => level.rank ≤ rule.rank && f.pattern.all (·.occursIn message)
  | none => false

end LogFilter

end CustomResource
