import CustomResource.Api.Answer
import CustomResource.Decode.Variant
import CustomResource.Resource.Object

/-!
# Watch events

A watch is answered by lines, each of which reports one event. The type of an event says what its
object is, whichever of the two comes first in the line: an object that comes first is set aside.

## Main definitions

* `WatchEvent`: the events, with `decode`.
* `WatchLine.parse`: what a line says: an event, nothing, or an error.
* `lines`: the lines of a body.
-/

namespace CustomResource

/-- An event of a watch. -/
inductive WatchEvent (k : Kind) where
  | written (object : Object k)
  | deleted (object : Object k)
  | bookmark (version : String)
  | error (response : ErrorResponse)
  deriving Repr, Inhabited

/-! ### Bookmarks -/

namespace Bookmark

/-- The metadata of a bookmark: a version, and annotations that are not used. -/
inductive MetaField where
  | version
  | annotations
  deriving DecidableEq, Repr

/-- The description of the metadata of a bookmark as a record. The version is required. -/
def metaRecord : Record MetaField String where
  title := "struct BookmarkMeta"
  fields := [.version, .annotations]
  name
    | .version => "resourceVersion"
    | .annotations => "annotations"
  Value
    | .version => String
    | .annotations => List (String × String)
  read
    | .version => Decoder.string
    | .annotations => Decoder.stringMap
  mayEnd
    | .version => false
    | .annotations => true
  build slots := slots.require (fun _ => "resourceVersion") .version

/-- The fields that tell the type of a bookmark. -/
inductive TypeField where
  | apiVersion
  | kind
  deriving DecidableEq, Repr

/-- The names of the fields that tell the type of a bookmark. -/
def TypeField.name : TypeField → String
  | .apiVersion => "apiVersion"
  | .kind => "kind"

/-- The description of the type of a bookmark as a record. Both texts are required, and not used. -/
def typeRecord : Record TypeField Unit where
  title := "struct TypeMeta"
  fields := [.apiVersion, .kind]
  name := TypeField.name
  Value _ := String
  read _ := Decoder.string
  mayEnd _ := false
  build slots := do
    let _ ← slots.require TypeField.name .apiVersion
    let _ ← slots.require TypeField.name .kind
    return ()

/-- The members of a bookmark and its end: the version in its metadata, if they have been found, and
all others in reverse, which may hold anything. -/
def members (depth : Nat) : List (Json.Lexeme String × Json.Node) → Option Json.Fault →
    Option String → List (String × Json) →
    Except DecodeError (Option String × List (String × Json))
  | [], stop, version, others => Decoder.unlessFault (version, others) stop
  | (lexeme, node) :: rest, stop, version, others => do
    let name ← Decoder.key lexeme
    if name = "metadata" then
      if version.isSome then throw (.duplicateField name)
      let found ← metaRecord.strict depth node
      members depth rest stop (some found) others
    else
      let value ← Decoder.json depth node
      members depth rest stop version ((name, value) :: others)

/-- Reads the version of a bookmark. What tells its type is looked at last, after all of it has been
read. -/
def decode : Decoder String
  | depth, .object nodes stop => do
    let depth ← Decoder.descend depth
    let (version, others) ← members depth nodes stop none []
    let version ← version.elim (.error (.missingField "metadata")) .ok
    let _ ← typeRecord.strict Decoder.startDepth
      (.object (Json.memberNodes others.reverse) none)
    return version
  | _, node => .error (Decoder.mismatch "struct Bookmark" node)

end Bookmark

/-! ### Events -/

namespace WatchEvent

variable {k : Kind}

/-- The types of events. -/
inductive Tag where
  | added
  | modified
  | deleted
  | bookmark
  | error
  deriving DecidableEq, Repr, Inhabited

/-- The type of that name. -/
def Tag.ofName (name : String) : Except DecodeError Tag :=
  if name = "ADDED" then .ok .added
  else if name = "MODIFIED" then .ok .modified
  else if name = "DELETED" then .ok .deleted
  else if name = "BOOKMARK" then .ok .bookmark
  else if name = "ERROR" then .ok .error
  else .error (.unknownVariant name ["ADDED", "MODIFIED", "DELETED", "BOOKMARK", "ERROR"])

/-- Reads the type of an event. -/
def tag : Decoder Tag := Decoder.variant Tag.ofName

/-- Reads what an event of that type is about, from how an object is read. -/
def contentWith (object : Decoder (Object k)) (tag : Tag) : Decoder (WatchEvent k) :=
  fun depth node =>
  match tag with
  | .added => (object depth node).map .written
  | .modified => (object depth node).map .written
  | .deleted => (object depth node).map .deleted
  | .bookmark => (Bookmark.decode depth node).map .bookmark
  | .error => (ErrorResponse.decode depth node).map .error

/-- Reads what an event of that type is about. -/
def content (k : Kind) (tag : Tag) : Decoder (WatchEvent k) := contentWith (Object.decode k) tag

/-- Reads what an event of that type is about, after it has been set aside. -/
def contentAside (k : Kind) (tag : Tag) : Decoder (WatchEvent k) :=
  contentWith (Object.decodeAside k) tag

/-- What has been read of an event: its type, an object that waits for its type, or the whole. -/
inductive Progress (k : Kind) where
  | nothing
  | tagged (tag : Tag)
  | waiting (node : Json.Node)
  | whole (event : WatchEvent k)
  deriving Inhabited

/-- Goes on with the type of an event. -/
def Progress.withTag (depth : Nat) (node : Json.Node) :
    Progress k → Except DecodeError (Progress k)
  | .nothing => (tag depth node).map .tagged
  | .waiting object => do
    let t ← tag depth node
    let event ← contentAside k t Decoder.startDepth object
    return .whole event
  | .tagged _ => .error (.duplicateField "type")
  | .whole _ => .error (.duplicateField "type")

/-- Goes on with the object of an event. Before the type is known it is set aside. -/
def Progress.withObject (depth : Nat) (node : Json.Node) :
    Progress k → Except DecodeError (Progress k)
  | .nothing => do
    let _ ← Decoder.json depth node
    return .waiting node
  | .tagged t => (content k t depth node).map .whole
  | .waiting _ => .error (.duplicateField "object")
  | .whole _ => .error (.duplicateField "object")

/-- The event of which all has been read. -/
def Progress.finish : Progress k → Except DecodeError (WatchEvent k)
  | .whole event => .ok event
  | .tagged _ => .error (.missingField "object")
  | .nothing => .error (.missingField "type")
  | .waiting _ => .error (.missingField "type")

/-- The members of an event and its end. -/
def members (depth : Nat) : List (Json.Lexeme String × Json.Node) →
    Option Json.Fault → Progress k → Except DecodeError (Progress k)
  | [], stop, progress => Decoder.unlessFault progress stop
  | (lexeme, node) :: rest, stop, progress => do
    let name ← Decoder.key lexeme
    if name = "type" then
      let progress ← progress.withTag depth node
      members depth rest stop progress
    else if name = "object" then
      let progress ← progress.withObject depth node
      members depth rest stop progress
    else
      match node.skip with
      | .error f => throw (.text f)
      | .ok () => members depth rest stop progress

/-- Reads an event from an object, or from an array of its type and its object. -/
def decode (k : Kind) : Decoder (WatchEvent k)
  | depth, .object nodes stop => do
    let depth ← Decoder.descend depth
    let progress ← members depth nodes stop .nothing
    progress.finish
  | depth, .array nodes stop => do
    let depth ← Decoder.descend depth
    match nodes with
    | t :: object :: rest =>
      let t ← tag depth t
      let event ← content k t depth object
      Record.arrayEnd event rest stop
    | [t] =>
      let _ ← tag depth t
      Decoder.unlessFault () stop
      throw (.invalidLength 1 "adjacently tagged enum WatchEvent")
    | [] =>
      Decoder.unlessFault () stop
      throw (.invalidLength 0 "adjacently tagged enum WatchEvent")
  | _, node => .error (Decoder.mismatch "adjacently tagged enum WatchEvent" node)

end WatchEvent

/-! ### Lines -/

namespace WatchLine

/-- What a line of a watch says. -/
inductive Reading (k : Kind) where
  | event (event : WatchEvent k)
  | skipped
  | failed (error : Api.Error)
  deriving Inhabited

/-- What a line says. A line that ends too early is passed over; one that is no event may be a
refusal. -/
def parse (k : Kind) (line : String) : Reading k :=
  match Decoder.ofText (WatchEvent.decode k) line with
  | .ok event => .event event
  | .error e =>
    if e.isCutOff then .skipped
    else
      match Decoder.ofText ErrorResponse.decode line with
      | .ok r => .failed (.refused r)
      | .error _ => .failed (.undecodable e)

end WatchLine

/-- Some bytes without a carriage return at their end. -/
def withoutReturn (bytes : List UInt8) : List UInt8 :=
  if bytes.getLast? = some 0x0D then bytes.dropLast else bytes

/-- The lines of some bytes, after those of the present line in reverse. A last line without a line
feed counts unless it is empty. -/
def linesAfter (line : List UInt8) : List UInt8 → List (List UInt8)
  | [] =>
    let last := line.reverse
    if last = [] ∨ last = [0x0D] then [] else [withoutReturn last]
  | b :: rest =>
    if b = 0x0A then withoutReturn line.reverse :: linesAfter [] rest
    else linesAfter (b :: line) rest

/-- The lines of a body. -/
def lines (body : ByteArray) : List ByteArray :=
  (linesAfter [] body.toList).map fun line => ⟨line.toArray⟩

end CustomResource
