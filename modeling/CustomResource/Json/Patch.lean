import CustomResource.Json.Pointer

/-!
# Patches

The two ways to say how a document changes: a list of operations on places of it, and a document
that is merged into it.

## Main definitions

* `Json.PatchOp`: one operation, with `encode`.
* `Json.merge`: the document after merging another one into it.
-/

namespace CustomResource

namespace Json

/-- An operation on a document. -/
inductive PatchOp where
  | add (path : String) (value : Json)
  | remove (path : String)
  | replace (path : String) (value : Json)
  | move (source : String) (path : String)
  | copy (source : String) (path : String)
  | test (path : String) (value : Json)
  deriving Repr, Inhabited

namespace PatchOp

/-- An operation as JSON. -/
def encode : PatchOp → Json
  | .add path value => .object [("op", .string "add"), ("path", .string path), ("value", value)]
  | .remove path => .object [("op", .string "remove"), ("path", .string path)]
  | .replace path value =>
    .object [("op", .string "replace"), ("path", .string path), ("value", value)]
  | .move source path =>
    .object [("op", .string "move"), ("from", .string source), ("path", .string path)]
  | .copy source path =>
    .object [("op", .string "copy"), ("from", .string source), ("path", .string path)]
  | .test path value => .object [("op", .string "test"), ("path", .string path), ("value", value)]

end PatchOp

/-- The members of an object without those of one name. -/
def eraseMember (key : String) (members : List (String × Json)) : List (String × Json) :=
  members.filter fun m => m.1 ≠ key

/-- The members of an object with one set, in its place if there is one of that name. -/
def setMember (key : String) (value : Json) : List (String × Json) → List (String × Json)
  | [] => [(key, value)]
  | (k, v) :: rest => if k = key then (key, value) :: rest else (k, v) :: setMember key value rest

/-- The members of an object; a value that is no object has none. -/
def membersOf : Json → List (String × Json)
  | .object members => members
  | _ => []

mutual

/-- Merges a patch into a document. Where the patch is an object, its members are merged into those
of the document one by one, and a null removes a member; any other patch takes the place of the
document. -/
def merge : Json → Json → Json
  | .object changes, doc => .object (mergeMembers changes (membersOf doc))
  | .null, _ => .null
  | .bool b, _ => .bool b
  | .number n, _ => .number n
  | .string s, _ => .string s
  | .array items, _ => .array items

/-- Merges the members of a patch into those of a document. -/
def mergeMembers : List (String × Json) → List (String × Json) → List (String × Json)
  | [], members => members
  | (key, .null) :: changes, members => mergeMembers changes (eraseMember key members)
  | (key, change) :: changes, members =>
    mergeMembers changes
      (setMember key (change.merge ((members.lookup key).getD .null)) members)

end

end Json

end CustomResource
