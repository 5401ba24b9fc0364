import CustomResource.Resource.Kind
import CustomResource.Text.Digits

/-!
# The command line

The options of the program. Arguments are read from left to right; an option is complete, and its
value looked at, once the next option begins or no argument is left.

## Main definitions

* `CommandLine`: the options that were given, or their defaults.
* `UsageError`: why arguments are not accepted, requests for help or the version among them.
* `CommandLine.parse`: the options in some arguments.
-/

namespace CustomResource

/-- The options of the program. -/
structure CommandLine where
  kind : Kind := .jinghzhu
  name : String := "demo1"
  scope : Option String := none
  kubeconfig : Option String := none
  linger : Nat := 5
  keepDefinition : Bool := false
  deriving DecidableEq, Repr, Inhabited

/-- Why arguments are not accepted. -/
inductive UsageError where
  | badValue
  | noValue
  | unknownArgument
  | repeated
  | tooManyValues
  | help
  | version
  deriving DecidableEq, Repr, Inhabited

/-- The status with which the program ends: asking for help or the version is no failure. -/
def UsageError.exitCode : UsageError → Nat
  | .help => 0
  | .version => 0
  | _ => 2

namespace CommandLine

/-- The options that take a value. -/
inductive Setting where
  | kind
  | name
  | scope
  | kubeconfig
  | linger
  deriving DecidableEq, Repr, Inhabited

/-- What a word after two dashes stands for. -/
inductive Word where
  | setting (setting : Setting)
  | keepDefinition
  | help
  | version
  deriving DecidableEq, Repr, Inhabited

/-- What a word after two dashes stands for. -/
def Word.ofText? (text : String) : Option Word :=
  if text = "kind" then some (.setting .kind)
  else if text = "name" then some (.setting .name)
  else if text = "namespace" then some (.setting .scope)
  else if text = "kubeconfig" then some (.setting .kubeconfig)
  else if text = "linger" then some (.setting .linger)
  else if text = "keep-crd" then some .keepDefinition
  else if text = "help" then some .help
  else if text = "version" then some .version
  else none

/-- What has been read: the options that are complete, and one that waits for its value or for its
end. -/
structure Progress where
  kind : Option Kind := none
  name : Option String := none
  scope : Option String := none
  kubeconfig : Option String := none
  linger : Option Nat := none
  keepDefinition : Bool := false
  pending : Option (Setting × Option String) := none
  deriving Repr, Inhabited

/-- A number of 64 bits without a sign; a plus may stand before it. -/
def number? (text : String) : Option Nat :=
  let digits := match text.toList with
    | '+' :: cs => cs
    | cs => cs
  (Text.decimal? digits).filter (· < Nat.pow 2 64)

namespace Progress

/-- Sets an option that has not been set before. -/
def unlessSet {α β : Type} (old : Option α) (value : Except UsageError β) : Except UsageError β :=
  if old.isSome then .error .repeated else value

/-- Completes an option by its value. -/
def set (p : Progress) (value : String) : Setting → Except UsageError Progress
  | .kind => unlessSet p.kind <|
    match Kind.ofText? value with
    | some k => .ok { p with kind := some k }
    | none => .error .badValue
  | .name => unlessSet p.name (.ok { p with name := some value })
  | .scope => unlessSet p.scope (.ok { p with scope := some value })
  | .kubeconfig => unlessSet p.kubeconfig <|
    if value = "" then .error .noValue else .ok { p with kubeconfig := some value }
  | .linger => unlessSet p.linger <|
    match number? value with
    | some n => .ok { p with linger := some n }
    | none => .error .badValue

/-- Completes the option that waits. -/
def complete (p : Progress) : Except UsageError Progress :=
  match p.pending with
  | none => .ok p
  | some (_, none) => .error .noValue
  | some (setting, some value) => ({ p with pending := none }).set value setting

/-- The options, with defaults for those that were not given. -/
def options (p : Progress) : CommandLine where
  kind := p.kind.getD .jinghzhu
  name := p.name.getD "demo1"
  scope := p.scope
  kubeconfig := p.kubeconfig
  linger := p.linger.getD 5
  keepDefinition := p.keepDefinition

end Progress

/-- A word after two dashes, and the value behind an equals sign. -/
def splitWord (cs : List Char) : String × Option String :=
  let word := String.ofList (cs.takeWhile (· ≠ '='))
  match cs.dropWhile (· ≠ '=') with
  | [] => (word, none)
  | _ :: value => (word, some (String.ofList value))

/-- Goes on with a word after two dashes. -/
def takeWord (p : Progress) (cs : List Char) : Except UsageError Progress :=
  let (text, value) := splitWord cs
  match Word.ofText? text, value with
  | none, _ => .error .unknownArgument
  | some (.setting s), some value => do (← p.complete).set value s
  | some (.setting s), none => do return { (← p.complete) with pending := some (s, none) }
  | some _, some _ => .error .tooManyValues
  | some .keepDefinition, none => do
    let p ← p.complete
    if p.keepDefinition then throw .repeated else return { p with keepDefinition := true }
  | some .help, none => do
    let _ ← p.complete
    throw .help
  | some .version, none => do
    let _ ← p.complete
    throw .version

/-- Goes on with a letter after one dash. -/
def takeLetter (p : Progress) (c : Char) : Except UsageError Progress :=
  if c = 'h' then do
    let _ ← p.complete
    throw .help
  else if c = 'V' then do
    let _ ← p.complete
    throw .version
  else .error .unknownArgument

/-- Goes on with an argument that is no option: the value of the one that waits. -/
def takeValue (p : Progress) (value : String) : Except UsageError Progress :=
  match p.pending with
  | some (setting, none) => .ok { p with pending := some (setting, some value) }
  | _ => .error .unknownArgument

/-- Reads arguments from left to right. Nothing may follow two dashes alone. -/
def parseFrom : Progress → List String → Except UsageError Progress
  | p, [] => p.complete
  | p, arg :: rest =>
    match arg.toList with
    | ['-', '-'] => if rest.isEmpty then p.complete else .error .unknownArgument
    | '-' :: '-' :: word =>
      match takeWord p word with
      | .ok p => parseFrom p rest
      | .error e => .error e
    | '-' :: c :: _ =>
      match takeLetter p c with
      | .ok p => parseFrom p rest
      | .error e => .error e
    | _ =>
      match takeValue p arg with
      | .ok p => parseFrom p rest
      | .error e => .error e

/-- The options in some arguments. -/
def parse (args : List String) : Except UsageError CommandLine :=
  (parseFrom {} args).map Progress.options

end CommandLine

end CustomResource
