import CustomResource.Api.Answer
import CustomResource.Decode.Variant

/-!
# Deletions

How an object is to be deleted, and what the apiserver says of it: a report, or the object as it was
last.

## Main definitions

* `DeleteParams`: the parameters of a deletion, with `encode`.
* `Deletion.decode`: reads what the apiserver says of a deletion.
-/

namespace CustomResource

/-! ### Parameters -/

/-- What happens to the objects that an object owns. -/
inductive Propagation where
  | orphan
  | background
  | foreground
  deriving DecidableEq, Repr, Inhabited

/-- The name of a propagation. -/
def Propagation.name : Propagation → String
  | .orphan => "Orphan"
  | .background => "Background"
  | .foreground => "Foreground"

/-- What an object has to be for the deletion to go on. -/
structure Preconditions where
  version : Option String := none
  uid : Option String := none
  deriving DecidableEq, Repr, Inhabited

/-- Preconditions as JSON. -/
def Preconditions.encode (p : Preconditions) : Json :=
  .object <|
    Json.optional "resourceVersion" (p.version.map .string) ++
    Json.optional "uid" (p.uid.map .string)

/-- How an object is to be deleted. -/
structure DeleteParams where
  dryRun : Bool := false
  gracePeriodSeconds : Option Nat := none
  propagation : Option Propagation := none
  preconditions : Option Preconditions := none
  deriving DecidableEq, Repr, Inhabited

/-- The parameters of a deletion as JSON. -/
def DeleteParams.encode (p : DeleteParams) : Json :=
  .object <|
    Json.optional "dryRun" (if p.dryRun then some (.array [.string "All"]) else none) ++
    Json.optional "gracePeriodSeconds" (p.gracePeriodSeconds.map .nat) ++
    Json.optional "propagationPolicy" (p.propagation.map fun x => .string x.name) ++
    Json.optional "preconditions" (p.preconditions.map Preconditions.encode)

/-! ### Reports -/

namespace Deletion

/-- A report's cause: a record of texts. -/
def causeRecord : Record (Fin 3) Unit where
  title := "struct StatusCause"
  fields := [0, 1, 2]
  name
    | 0 => "reason"
    | 1 => "message"
    | 2 => "field"
  Value _ := String
  read _ := Decoder.string
  mayEnd _ := true
  build _ := .ok ()

/-- The fields of the details of a report. -/
inductive Detail where
  | text (name : String)
  | causes
  | retry
  deriving DecidableEq, Repr

/-- The details of a report: texts, causes, and after how many seconds to try again. -/
def detailsRecord : Record Detail Unit where
  title := "struct StatusDetails"
  fields := [.text "name", .text "group", .text "kind", .text "uid", .causes, .retry]
  name
    | .text name => name
    | .causes => "causes"
    | .retry => "retryAfterSeconds"
  Value
    | .text _ => String
    | .causes => List Unit
    | .retry => Nat
  read
    | .text _ => Decoder.string
    | .causes => Decoder.list causeRecord.strict
    | .retry => Decoder.uint32
  mayEnd _ := true
  build _ := .ok ()

/-- The verdict of a report. -/
def verdict : Decoder Unit :=
  Decoder.variant fun name =>
    if name = "Success" ∨ name = "Failure" then .ok ()
    else .error (.unknownVariant name ["Success", "Failure"])

/-- The fields of a report. -/
inductive Field where
  | verdict
  | code
  | message
  | reason
  | details
  deriving DecidableEq, Repr

/-- The description of a report as a record. Every field may be missing. -/
def reportRecord : Record Field Unit where
  title := "struct Status"
  fields := [.verdict, .code, .message, .reason, .details]
  name
    | .verdict => "status"
    | .code => "code"
    | .message => "message"
    | .reason => "reason"
    | .details => "details"
  Value
    | .verdict => Option Unit
    | .code => Nat
    | .message => String
    | .reason => String
    | .details => Option Unit
  read
    | .verdict => Decoder.optional verdict
    | .code => Decoder.uint16
    | .message => Decoder.string
    | .reason => Decoder.string
    | .details => Decoder.optional detailsRecord.strict
  mayEnd _ := true
  build _ := .ok ()

/-- Reads what the apiserver says of a deletion: a report if the kind of the answer is `Status`, and
otherwise an object. -/
def decode {α : Type} (object : Decoder α) (answer : Answer) : Except Api.Error Unit := do
  let text ← answer.text
  let read {β : Type} (decoder : Decoder β) : Except Api.Error β :=
    (Decoder.ofText decoder text).mapError .undecodable
  let value ← read Decoder.json
  match value.get? "kind" with
  | some (.string "Status") => read reportRecord.strict
  | _ =>
    let _ ← read object
    return ()

end Deletion

end CustomResource
