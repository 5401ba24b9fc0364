import CustomResource.Clock.Timestamp
import CustomResource.Json.Document
import CustomResource.Numeral.Shortest
import CustomResource.Text.Base64
import CustomResource.Text.Quoted

/-!
# Decoding errors

Why a document is not the value that a reader asks for: its text is not JSON, or it holds something
of another shape.

## Main definitions

* `Found`: what stands where something else was expected.
* `Wording`: how some things are called in one kind of document.
* `DecodeError`: the errors, with their wording in `DecodeError.message`.
* `DecodeError.isNotJson`: whether the text itself is at fault.
-/

namespace CustomResource

/-- What stands where something else was expected. -/
inductive Found where
  | null
  | bool (value : Bool)
  | number (value : Json.Number)
  | string (value : String)
  | sequence
  | map
  deriving DecidableEq, Repr, Inhabited

/-- How some things are called in one kind of document: null, doubles, and faults in base 64. -/
structure Wording where
  null : String
  float : Binary64 → String
  base64 : Text.Base64.Rules

/-- The wording of answers of the apiserver. -/
def Wording.ofDocuments : Wording := ⟨"null", Binary64.render, .ofDocuments⟩

/-- The wording of configurations. -/
def Wording.ofConfigurations : Wording :=
  ⟨"unit value", Binary64.renderPositional, .ofConfigurations⟩

/-- How a message names what was found. -/
def Found.render (w : Wording) : Found → String
  | .null => w.null
  | .bool true => "boolean `true`"
  | .bool false => "boolean `false`"
  | .number (.int n) => "integer `" ++ Text.ofInt n ++ "`"
  | .number (.float x) => "floating point `" ++ w.float x ++ "`"
  | .string s => "string " ++ Text.quoted s
  | .sequence => "sequence"
  | .map => "map"

/-- Why a document cannot be decoded. -/
inductive DecodeError where
  | text (fault : Json.Fault)
  | invalidType (found : Found) (expected : String)
  | invalidValue (found : Found) (expected : String)
  | invalidLength (length : Nat) (expected : String)
  | missingField (name : String)
  | duplicateField (name : String)
  | unknownVariant (name : String) (expected : List String)
  | base64 (fault : Text.Base64.Fault)
  | timestamp (fault : Timestamp.Fault)
  deriving DecidableEq, Repr, Inhabited

namespace DecodeError

/-- How a message lists the names of which one was expected. -/
def alternatives : List String → String
  | [a, b] => "`" ++ a ++ "` or `" ++ b ++ "`"
  | [a] => "`" ++ a ++ "`"
  | names => "one of " ++ ", ".intercalate (names.map fun n => "`" ++ n ++ "`")

/-- How an error is worded in one kind of document. -/
def messageIn (w : Wording) : DecodeError → String
  | .text f => f.message
  | .invalidType found expected => "invalid type: " ++ found.render w ++ ", expected " ++ expected
  | .invalidValue found expected => "invalid value: " ++ found.render w ++ ", expected " ++ expected
  | .invalidLength n expected => "invalid length " ++ Text.ofNat n ++ ", expected " ++ expected
  | .missingField name => "missing field `" ++ name ++ "`"
  | .duplicateField name => "duplicate field `" ++ name ++ "`"
  | .unknownVariant name expected =>
    "unknown variant `" ++ name ++ "`, expected " ++ alternatives expected
  | .base64 f => f.message w.base64
  | .timestamp f => f.message

/-- The wording of an error in an answer of the apiserver. -/
def message (e : DecodeError) : String := e.messageIn .ofDocuments

/-- Whether the text itself is at fault, rather than the shape of the value in it. -/
def isNotJson : DecodeError → Bool
  | .text _ => true
  | _ => false

/-- Whether the text ends where more of a value was expected. -/
def isCutOff : DecodeError → Bool
  | .text f => f.isEnd
  | _ => false

end DecodeError

end CustomResource
