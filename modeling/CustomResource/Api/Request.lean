import CustomResource.Api.Error
import CustomResource.Json.Printer
import CustomResource.Json.Patch
import CustomResource.Resource.Kind

/-!
# Requests

What is asked of the apiserver: a method, a path, parameters and a body. Paths are put together by
plain concatenation, so a name can spoil one; parameters are encoded.

## Main definitions

* `Endpoint`: where the objects of one type are, in one namespace or in all.
* `Request`: a request, with its `url`.
* `Request.check`: whether the URL of a request can be sent.
* `Patch`: the ways to send a change, with their content types.
-/

namespace CustomResource

/-- What a request does. -/
inductive Method where
  | get
  | post
  | put
  | patch
  | delete
  deriving DecidableEq, Repr, Inhabited

/-- The name of a method. -/
def Method.name : Method → String
  | .get => "GET"
  | .post => "POST"
  | .put => "PUT"
  | .patch => "PATCH"
  | .delete => "DELETE"

/-! ### Endpoints -/

/-- Where the objects of one type are: the path of their group and version, a namespace unless all
are meant, and their name in paths. -/
structure Endpoint where
  root : String
  scope : Option String
  plural : String
  deriving DecidableEq, Repr, Inhabited

namespace Endpoint

/-- The path of all objects of an endpoint. -/
def path (e : Endpoint) : String :=
  match e.scope with
  | some ns => e.root ++ "/namespaces/" ++ ns ++ "/" ++ e.plural
  | none => e.root ++ "/" ++ e.plural

/-- The path of one object. -/
def item (e : Endpoint) (name : String) : String := e.path ++ "/" ++ name

/-- The path of the status of one object. -/
def status (e : Endpoint) (name : String) : String := e.item name ++ "/status"

/-- The instances of a kind in a namespace. -/
def instances (k : Kind) (ns : String) : Endpoint :=
  ⟨"/apis/" ++ k.apiVersion, some ns, k.plural⟩

/-- The instances of a kind in all namespaces. -/
def allInstances (k : Kind) : Endpoint :=
  ⟨"/apis/" ++ k.apiVersion, none, k.plural⟩

/-- The definitions of kinds. -/
def definitions : Endpoint := ⟨"/apis/apiextensions.k8s.io/v1", none, "customresourcedefinitions"⟩

/-- The namespaces. -/
def namespaces : Endpoint := ⟨"/api/v1", none, "namespaces"⟩

end Endpoint

/-! ### Parameters -/

namespace Query

/-- Whether a byte stands for itself in a parameter. -/
def isPlain (b : UInt8) : Bool :=
  let n := b.toNat
  (0x30 ≤ n && n ≤ 0x39) || (0x41 ≤ n && n ≤ 0x5A) || (0x61 ≤ n && n ≤ 0x7A) ||
    n == 0x2A || n == 0x2D || n == 0x2E || n == 0x5F

/-- How one byte is written in a parameter. -/
def encodeByte (b : UInt8) : List Char :=
  if isPlain b then [Char.ofNat b.toNat]
  else if b = 0x20 then ['+']
  else '%' :: (Text.paddedHex 2 b.toNat).map Char.toUpper

/-- The encoded form of a text. -/
def encode (s : String) : String :=
  String.ofList (s.toUTF8.toList.flatMap encodeByte)

/-- Parameters as they stand after the question mark, each after an ampersand. -/
def render (params : List (String × String)) : String :=
  String.join (params.map fun p => "&" ++ p.1 ++ "=" ++ encode p.2)

end Query

/-! ### Bodies -/

/-- The content types of bodies. -/
inductive ContentType where
  | json
  | mergePatch
  | jsonPatch
  | strategicPatch
  | applyPatch
  deriving DecidableEq, Repr, Inhabited

/-- The name of a content type. -/
def ContentType.name : ContentType → String
  | .json => "application/json"
  | .mergePatch => "application/merge-patch+json"
  | .jsonPatch => "application/json-patch+json"
  | .strategicPatch => "application/strategic-merge-patch+json"
  | .applyPatch => "application/apply-patch+yaml"

/-- A change to an object. -/
inductive Patch where
  | merge (doc : Json)
  | strategic (doc : Json)
  | apply (doc : Json)
  | json (ops : List Json.PatchOp)
  deriving Repr, Inhabited

namespace Patch

/-- The content type in which a change is sent. -/
def contentType : Patch → ContentType
  | .merge _ => .mergePatch
  | .strategic _ => .strategicPatch
  | .apply _ => .applyPatch
  | .json _ => .jsonPatch

/-- The body in which a change is sent. -/
def body : Patch → Json
  | .merge doc => doc
  | .strategic doc => doc
  | .apply doc => doc
  | .json ops => .array (ops.map Json.PatchOp.encode)

end Patch

/-! ### Requests -/

/-- A request. One without parameters has no question mark in its URL; one with an empty list of
them has. -/
structure Request where
  method : Method
  path : String
  query : Option (List (String × String)) := none
  body : Option (ContentType × Json) := none
  deriving Repr, Inhabited

namespace Request

/-- The path and the parameters as they are put together. -/
def fullText (r : Request) : String :=
  match r.query with
  | some params => r.path ++ "?" ++ Query.render params
  | none => r.path

/-- The URL that is sent: a number sign cuts it off. -/
def url (r : Request) : String :=
  String.ofList (r.fullText.toList.takeWhile (· ≠ '#'))

/-- Refuses a request whose URL cannot be sent. -/
def check (r : Request) : Except Api.Error Unit :=
  (Uri.check r.url).mapError fun f => .badRequest (.uri f)

/-- Reads one object. -/
def read (e : Endpoint) (name : String) : Request :=
  { method := .get, path := e.item name }

/-- Creates an object. -/
def create (e : Endpoint) (object : Json) : Request :=
  { method := .post, path := e.path, query := some [], body := some (.json, object) }

/-- Replaces an object. -/
def replace (e : Endpoint) (name : String) (object : Json) : Request :=
  { method := .put, path := e.item name, query := some [], body := some (.json, object) }

/-- Deletes an object. -/
def delete (e : Endpoint) (name : String) (options : Json) : Request :=
  { method := .delete, path := e.item name, query := some [], body := some (.json, options) }

/-- Changes an object. -/
def patch (e : Endpoint) (name : String) (p : Patch) : Request :=
  { method := .patch, path := e.item name, query := some [],
    body := some (p.contentType, p.body) }

/-- Changes the status of an object. -/
def patchStatus (e : Endpoint) (name : String) (p : Patch) : Request :=
  { method := .patch, path := e.status name, query := some [],
    body := some (p.contentType, p.body) }

/-- Lists objects. -/
def list (e : Endpoint) (params : List (String × String)) : Request :=
  { method := .get, path := e.path, query := some params }

end Request

end CustomResource
