import CustomResource.Json.Basic
import CustomResource.Text.Digits
import CustomResource.Text.Pieces

/-!
# Pointers into a JSON value

A pointer names a place in a value by the keys and indices that lead to it, each after a slash. In a
key `~1` stands for a slash and `~0` for a tilde.

## Main definitions

* `Json.pointer?`: the steps of a pointer.
* `Json.replaceAt?`: the value with another one in a place that exists.
-/

namespace CustomResource

namespace Json

/-- A step as it is meant: `~1` is a slash, `~0` a tilde, and any other tilde stands for itself. -/
def unescapeStep : List Char → List Char
  | '~' :: '1' :: cs => '/' :: unescapeStep cs
  | '~' :: '0' :: cs => '~' :: unescapeStep cs
  | c :: cs => c :: unescapeStep cs
  | [] => []

/-- The steps of a pointer. The empty pointer has none; any other one starts with a slash. -/
def pointer? (path : String) : Option (List String) :=
  match path.toList with
  | [] => some []
  | '/' :: cs => some ((Text.splitAt '/' cs).map fun step => String.ofList (unescapeStep step))
  | _ => none

/-- The index that a step means in an array: digits without a needless zero at the start. -/
def index? (step : String) : Option Nat :=
  match step.toList with
  | '0' :: _ :: _ => none
  | cs => Text.decimal? cs

/-- The members of an object with the value of one changed. None when it has no such member. -/
def updateMember? (key : String) (f : Json → Option Json) :
    List (String × Json) → Option (List (String × Json))
  | [] => none
  | (k, v) :: rest =>
    if k = key then (f v).map fun v => (k, v) :: rest
    else (updateMember? key f rest).map ((k, v) :: ·)

/-- The items of an array with one changed. None when it has no such item. -/
def updateItem? (f : Json → Option Json) : Nat → List Json → Option (List Json)
  | _, [] => none
  | 0, item :: items => (f item).map (· :: items)
  | n + 1, item :: items => (updateItem? f n items).map (item :: ·)

/-- The value with another one at the end of some steps, which has to exist. -/
def replaceSteps? (new : Json) : List String → Json → Option Json
  | [], _ => some new
  | step :: steps, .object members =>
    (updateMember? step (replaceSteps? new steps) members).map .object
  | step :: steps, .array items =>
    (index? step).bind fun n => (updateItem? (replaceSteps? new steps) n items).map .array
  | _ :: _, _ => none

/-- The value with another one at the place of a pointer, which has to exist. -/
def replaceAt? (path : String) (new doc : Json) : Option Json :=
  (pointer? path).bind fun steps => replaceSteps? new steps doc

end Json

end CustomResource
