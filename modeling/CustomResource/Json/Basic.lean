import CustomResource.Numeral.Binary64

/-!
# JSON values

Objects keep their members in the order in which they were built, so that a value determines its
text. A number is an integer of 64 bits, with or without sign, or a double.

## Main definitions

* `Json`: the values.
* `Json.get?`: the member of an object.
* `Json.putSorted`: an object's members as a map in the order of its keys.
-/

namespace CustomResource

/-- A JSON number. Readers produce integers between `-2 ^ 63` and `2 ^ 64 - 1` only; any other
number is a double. -/
inductive Json.Number where
  | int (value : Int)
  | float (value : Binary64)
  deriving DecidableEq, Repr, Inhabited

/-- A JSON value. -/
inductive Json where
  | null
  | bool (value : Bool)
  | number (value : Json.Number)
  | string (value : String)
  | array (items : List Json)
  | object (members : List (String × Json))
  deriving Repr, Inhabited

namespace Json

/-- An integer as a value. -/
def int (n : Int) : Json := .number (.int n)

/-- A natural number as a value. -/
def nat (n : Nat) : Json := .number (.int n)

/-- A text, or null where there is none. -/
def ofString? : Option String → Json
  | some s => .string s
  | none => .null

/-- The member of that name, if the value is an object that has one. -/
def get? (key : String) : Json → Option Json
  | .object members => members.lookup key
  | _ => none

/-- The member of that name, null where it is missing. -/
def field (key : String) (value : Json) : Json :=
  (value.get? key).getD .null

/-- A member that is written only when it is present. -/
def optional (key : String) : Option Json → List (String × Json)
  | some value => [(key, value)]
  | none => []

/-- Sets a member of a map that is kept in the order of its keys, in place of one of the same
name. -/
def putSorted {α : Type} (key : String) (value : α) : List (String × α) → List (String × α)
  | [] => [(key, value)]
  | (k, v) :: rest =>
    if key < k then (key, value) :: (k, v) :: rest
    else if key = k then (key, value) :: rest
    else (k, v) :: putSorted key value rest

mutual

/-- The value with the members of every object in the order of their keys, the later of two members
of one name kept. -/
def sorted : Json → Json
  | .array items => .array (sortedItems items)
  | .object members => .object (sortedMembers members [])
  | .null => .null
  | .bool b => .bool b
  | .number n => .number n
  | .string s => .string s

/-- `sorted` for each item of an array. -/
def sortedItems : List Json → List Json
  | [] => []
  | item :: rest => item.sorted :: sortedItems rest

/-- Puts the members of an object into a sorted map. -/
def sortedMembers : List (String × Json) → List (String × Json) → List (String × Json)
  | [], done => done
  | (key, value) :: rest, done => sortedMembers rest (putSorted key value.sorted done)

end

end Json

end CustomResource
