import CustomResource.Api.Request
import CustomResource.Decode.Record
import CustomResource.Resource.Metadata

/-!
# Lists of objects

What is asked for in a list, and what comes back: objects, with the version of the whole list and a
token that leads to more of them.

## Main definitions

* `ListParams`: the parameters of a list, with `check` and `query`.
* `ListMeta`: what is said about a list.
* `ObjectList`: a list, with `decode` and `encode`.
-/

namespace CustomResource

/-! ### Parameters -/

/-- How the version of a list relates to a version that was asked for. -/
inductive VersionMatch where
  | notOlderThan
  | exact
  deriving DecidableEq, Repr, Inhabited

/-- The name of a relation of versions. -/
def VersionMatch.name : VersionMatch → String
  | .notOlderThan => "NotOlderThan"
  | .exact => "Exact"

/-- What is asked for in a list. -/
structure ListParams where
  labels : Option String := none
  fields : Option String := none
  limit : Option Nat := none
  token : Option String := none
  version : Option String := none
  versionMatch : Option VersionMatch := none
  deriving DecidableEq, Repr, Inhabited

namespace ListParams

/-- A relation needs a version, and the relation `exact` one other than zero. -/
def check (p : ListParams) : Except Api.Error Unit :=
  match p.version, p.versionMatch with
  | none, some _ =>
    .error (.badRequest (.notValid "A resource_version is required when using an explicit match"))
  | some v, some .exact =>
    if v = "0" then
      .error (.badRequest
        (.notValid "A non-zero resource_version is required when using an Exact match"))
    else .ok ()
  | _, _ => .ok ()

/-- A parameter that is sent only when it is given. -/
def optional (name : String) : Option String → List (String × String)
  | some value => [(name, value)]
  | none => []

/-- The version that is sent: none beside a token, and none that is zero beside a limit. -/
def versionQuery (p : ListParams) : List (String × String) :=
  match p.token, p.version with
  | some token, _ => [("continue", token)]
  | none, none => []
  | none, some v =>
    if v ≠ "0" ∨ p.limit.isNone then
      ("resourceVersion", v) :: optional "resourceVersionMatch" (p.versionMatch.map (·.name))
    else []

/-- The parameters in the order in which they are sent. -/
def query (p : ListParams) : List (String × String) :=
  optional "fieldSelector" p.fields ++ optional "labelSelector" p.labels ++
    optional "limit" (p.limit.map Text.ofNat) ++ p.versionQuery

end ListParams

/-! ### What is said about a list -/

/-- What is said about a list. -/
structure ListMeta where
  token : Option String := none
  remaining : Option Int64 := none
  version : Option String := none
  selfLink : Option String := none
  deriving DecidableEq, Repr, Inhabited

namespace ListMeta

/-- The fields. -/
inductive Field where
  | token
  | remaining
  | version
  | selfLink
  deriving DecidableEq, Repr

/-- The description of what is said about a list as a record. -/
def record : Record Field ListMeta where
  title := "ListMeta"
  fields := [.token, .remaining, .version, .selfLink]
  name
    | .token => "continue"
    | .remaining => "remainingItemCount"
    | .version => "resourceVersion"
    | .selfLink => "selfLink"
  Value
    | .token => Option String
    | .remaining => Option Int64
    | .version => Option String
    | .selfLink => Option String
  read
    | .token => Decoder.optional Decoder.string
    | .remaining => Decoder.optional Decoder.int64
    | .version => Decoder.optional Decoder.string
    | .selfLink => Decoder.optional Decoder.string
  mayEnd _ := true
  build slots := .ok
    { token := (slots .token).join
      remaining := (slots .remaining).join
      version := (slots .version).join
      selfLink := (slots .selfLink).join }

/-- Reads what is said about a list. -/
def decode : Decoder ListMeta := record.lenient

/-- What is said about a list as JSON. -/
def encode (m : ListMeta) : Json :=
  .object <|
    Json.optional "continue" (m.token.map .string) ++
    Json.optional "remainingItemCount" (m.remaining.map fun n => .int n.toInt) ++
    Json.optional "resourceVersion" (m.version.map .string) ++
    Json.optional "selfLink" (m.selfLink.map .string)

end ListMeta

/-! ### Lists -/

/-- A list of objects. -/
structure ObjectList (α : Type) where
  apiVersion : String
  kind : String
  metadata : ListMeta
  items : List α
  deriving Repr

namespace ObjectList

variable {α : Type}

/-- What has been read of a list: its two fields, and the other members. -/
structure Parts (α : Type) where
  metadata : Option ListMeta := none
  items : Option (List α) := none
  others : List (String × Json) := []

/-- The members of a list and its end. The two fields may not be given twice; the others are read as
any values. -/
def parts (item : Decoder α) (depth : Nat) :
    List (Json.Lexeme String × Json.Node) → Option Json.Fault → Parts α →
    Except DecodeError (Parts α)
  | [], stop, found => Decoder.unlessFault found stop
  | (lexeme, node) :: rest, stop, found => do
    let name ← Decoder.key lexeme
    if name = "metadata" then
      if found.metadata.isSome then throw (.duplicateField name)
      let value ← ListMeta.decode depth node
      parts item depth rest stop { found with metadata := some value }
    else if name = "items" then
      if found.items.isSome then throw (.duplicateField name)
      let value ← Decoder.optional (Decoder.list item) depth node
      parts item depth rest stop { found with items := some (value.getD []) }
    else
      let value ← Decoder.json depth node
      parts item depth rest stop { found with others := found.others ++ [(name, value)] }

/-- The one text of that name among some members. -/
def oneText? (name : String) (members : List (String × Json)) : Option String :=
  match members.filter fun m => m.1 = name with
  | [(_, .string s)] => some s
  | _ => none

/-- The list of which the parts have been read. Unless it has both a version and a kind it counts as
a plain list. -/
def ofParts (p : Parts α) : Except DecodeError (ObjectList α) := do
  let metadata ← p.metadata.elim (.error (.missingField "metadata")) .ok
  let items ← p.items.elim (.error (.missingField "items")) .ok
  let (apiVersion, kind) :=
    match oneText? "apiVersion" p.others, oneText? "kind" p.others with
    | some v, some k => (v, k)
    | _, _ => ("v1", "List")
  return { apiVersion, kind, metadata, items }

/-- Reads a list. -/
def decode (item : Decoder α) : Decoder (ObjectList α)
  | depth, .object nodes stop => do
    let depth ← Decoder.descend depth
    ofParts (← parts item depth nodes stop {})
  | _, node => .error (Decoder.mismatch "struct ObjectList" node)

/-- A list as JSON. -/
def encode (item : α → Json) (l : ObjectList α) : Json :=
  .object
    [ ("apiVersion", .string l.apiVersion),
      ("kind", .string l.kind),
      ("metadata", l.metadata.encode),
      ("items", .array (l.items.map item)) ]

end ObjectList

end CustomResource
