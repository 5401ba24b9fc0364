import CustomResource.Api.ObjectList
import CustomResource.Watch.Event
import CustomResource.Watch.Informer

/-!
# The watcher

Follows all objects of a kind: it lists them page by page, then watches for events from the version
of the list on, and starts over when it has lost track. Between two requests it is in one of two
states; an answer takes it to the next state and yields observations and errors on the way.

## Main definitions

* `WatchConfig`: what is watched, and how.
* `WatchError`: what can go wrong, with its wording.
* `Watcher`: the states, with the next `request`.
* `Watcher.receive`: what an answer yields, and the state after it.
-/

namespace CustomResource

/-- What is watched, and how. -/
structure WatchConfig where
  labels : Option String := none
  fields : Option String := none
  timeoutSeconds : Option Nat := none
  bookmarks : Bool := true
  pageSize : Option Nat := some 500
  anyVersion : Bool := false
  deriving DecidableEq, Repr, Inhabited

namespace WatchConfig

/-- The parameters of the list of objects, from the page of a token on. -/
def listParams (c : WatchConfig) (token : Option String) : ListParams where
  labels := c.labels
  fields := c.fields
  limit := c.pageSize
  token := token
  version := if c.anyVersion then some "0" else none
  versionMatch := if c.anyVersion then some .notOlderThan else none

/-- The parameters of a watch from a version on. -/
def watchQuery (c : WatchConfig) (version : String) : List (String × String) :=
  [("watch", "true"), ("timeoutSeconds", Text.ofNat (c.timeoutSeconds.getD 290))] ++
    ListParams.optional "fieldSelector" c.fields ++
    ListParams.optional "labelSelector" c.labels ++
    (if c.bookmarks then [("allowWatchBookmarks", "true")] else []) ++
    [("resourceVersion", version)]

end WatchConfig

/-- What can go wrong in watching. -/
inductive WatchError where
  | list (error : Api.Error)
  | start (error : Api.Error)
  | reported (response : ErrorResponse)
  | stream (error : Api.Error)
  | noVersion
  deriving DecidableEq, Repr, Inhabited

/-- The wording of an error. -/
def WatchError.message : WatchError → String
  | .list e => "failed to perform initial object list: " ++ e.message
  | .start e => "failed to start watching object: " ++ e.message
  | .reported r => "error returned by apiserver during watch: " ++ r.summary
  | .stream e => "watch stream failed: " ++ e.message
  | .noVersion =>
    "no metadata.resourceVersion in watch result (does resource support watch?)"

/-- A state of the watcher between two requests: it lists objects, with those of the pages before,
or it watches from a version on. -/
inductive Watcher (k : Kind) where
  | listing (token : Option String) (objects : List (Object k))
  | watching (version : String)
  deriving Repr, Inhabited

namespace Watcher

variable {k : Kind}

/-- What the watcher yields: an observation, or an error. -/
abbrev Item (k : Kind) : Type := Except WatchError (Observation k)

/-- The state in which the watcher starts, and starts over. -/
def start : Watcher k := .listing none []

/-- The next request. -/
def request (c : WatchConfig) : Watcher k → Request
  | .listing token _ => Request.list (.allInstances k) (c.listParams token).query
  | .watching version => Request.list (.allInstances k) (c.watchQuery version)

/-- A text that is not empty. -/
def nonEmpty (text : Option String) : Option String :=
  text.filter (· ≠ "")

/-- What a page of the list yields. The version of the last page counts, and without one all is
listed again. -/
def receiveList (objects : List (Object k)) (answer : Answer) : List (Item k) × Watcher k :=
  match answer.decode (ObjectList.decode (Object.decode k)) with
  | .error e => ([.error (.list e)], start)
  | .ok page =>
    let objects := objects ++ page.items
    match nonEmpty page.metadata.token, nonEmpty page.metadata.version with
    | some token, _ => ([], .listing (some token) objects)
    | none, some version => ([.ok (.restarted objects)], .watching version)
    | none, none => ([.error .noVersion], start)

/-- What the lines of a watch yield, from a version on. Every event moves the version. A line that
is no text ends the watch; an event without a version, and a refusal because the version is too old,
make the watcher start over. -/
def receiveLines : String → List ByteArray → List (Item k) × Watcher k
  | version, [] => ([], .watching version)
  | version, line :: rest =>
    match Text.decodeUtf8 line with
    | .error _ =>
      ([.error (.stream (.unreadableStream "Unable to decode input as UTF8"))], .watching version)
    | .ok text =>
      match WatchLine.parse k text with
      | .skipped => receiveLines version rest
      | .failed e =>
        let (items, state) := receiveLines version rest
        (.error (.stream e) :: items, state)
      | .event (.bookmark version) => receiveLines version rest
      | .event (.error r) =>
        if r.code = 410 then ([.error (.reported r)], start)
        else
          let (items, state) := receiveLines version rest
          (.error (.reported r) :: items, state)
      | .event (.written o) =>
        match nonEmpty o.metadata.resourceVersion with
        | none => ([.error .noVersion], start)
        | some version =>
          let (items, state) := receiveLines version rest
          (.ok (.applied o) :: items, state)
      | .event (.deleted o) =>
        match nonEmpty o.metadata.resourceVersion with
        | none => ([.error .noVersion], start)
        | some version =>
          let (items, state) := receiveLines version rest
          (.ok (.deleted o) :: items, state)

/-- What an answer yields, and the state after it. The status of HTTP of a watch is not looked
at. -/
def receive : Watcher k → Answer → List (Item k) × Watcher k
  | .listing _ objects, answer => receiveList objects answer
  | .watching version, .noConnection reason behind =>
    ([.error (.start (.noConnection reason behind))], .watching version)
  | .watching version, .response _ body => receiveLines version (lines body)

end Watcher

end CustomResource
