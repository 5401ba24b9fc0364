import CustomResource.Text.Quoted

/-!
# Kinds

The kinds of resources that the controller manages, and the names under which the apiserver knows
them. All kinds have version `v1` and belong to a namespace.

## Main definitions

* `Kind`: the kinds, with their `name`, `group`, `plural`, `singular`, `shortNames`.
* `Kind.definitionName`: the name of the definition of a kind, its plural and its group.
* `Kind.ofText?`: a kind from its name in letters of any case.
-/

namespace CustomResource

/-- A kind of resource. -/
inductive Kind where
  | example
  | test
  | jinghzhu
  deriving DecidableEq, Repr, Inhabited

namespace Kind

/-- All kinds, in the order in which they are listed. -/
def all : List Kind := [.example, .test, .jinghzhu]

/-- The name of a kind. -/
def name : Kind → String
  | .example => "Example"
  | .test => "Test"
  | .jinghzhu => "Jinghzhu"

/-- The API group of a kind. -/
def group : Kind → String
  | .example => "jinghzhu.io"
  | .test => "test0.io"
  | .jinghzhu => "jinghzhu.io"

/-- The name of a kind in paths. -/
def plural : Kind → String
  | .example => "examples"
  | .test => "tests"
  | .jinghzhu => "jinghzhus"

/-- The name of one resource of a kind. -/
def singular : Kind → String
  | .example => "example"
  | .test => "test"
  | .jinghzhu => "jinghzhu"

/-- The abbreviations of a kind. -/
def shortNames : Kind → List String
  | .example => []
  | .test => []
  | .jinghzhu => ["jh"]

/-- The version of every kind. -/
def version : String := "v1"

/-- The group and version that objects of a kind carry. -/
def apiVersion (k : Kind) : String := k.group ++ "/" ++ version

/-- The name of the definition of a kind. -/
def definitionName (k : Kind) : String := k.plural ++ "." ++ k.group

/-- Whether two texts agree but for the case of ASCII letters. -/
def sameLetters (a b : String) : Bool :=
  a.toList.map Char.toLower = b.toList.map Char.toLower

/-- The kind of that name, in letters of any case. -/
def ofText? (text : String) : Option Kind :=
  all.find? fun k => sameLetters k.name text

/-- What is said of a text that names no kind. -/
def unknownMessage (text : String) : String :=
  "unknown kind " ++ Text.quoted text ++ ", expected one of example, test, jinghzhu"

end Kind

end CustomResource
