import CustomResource.Watch.Store

/-!
# The informer

Turns what a watch observes into notifications, and keeps the store of observed objects up to date.
A new list of all objects is compared with the store: objects that are not in the store have been
added, those whose version differs have been updated, and those that are missing have been deleted.

## Main definitions

* `Observation`: what a watch observes.
* `Notification`: what is made known.
* `Informer.diff`: the notifications of a new list.
* `Informer.step?`: the notifications and the store after an observation.
-/

namespace CustomResource

/-- What a watch observes: an object has been written or deleted, or here are all objects. -/
inductive Observation (k : Kind) where
  | applied (object : Object k)
  | deleted (object : Object k)
  | restarted (objects : List (Object k))
  deriving Repr, Inhabited

/-- What is made known about an object. -/
inductive Notification (k : Kind) where
  | added (object : Object k)
  | updated (old new : Object k)
  | deleted (object : Object k)
  deriving Repr, Inhabited

namespace Informer

variable {k : Kind}

/-- Some objects with their keys. None if one of them has no name. -/
def keyed? : List (Object k) → Option (List (Key × Object k))
  | [] => some []
  | o :: os =>
    match o.key?, keyed? os with
    | some key, some rest => some ((key, o) :: rest)
    | _, _ => none

/-- The notifications of a new list, one object after the other, with what is left of the entries
that were known before. What is left at the end has been deleted. -/
def diff : List (Key × Object k) → List (Key × Object k) → List (Notification k)
  | previous, [] => previous.map fun e => .deleted e.2
  | previous, (key, o) :: rest =>
    match previous.lookup key with
    | none => .added o :: diff previous rest
    | some old =>
      let left := previous.filter fun e => e.1 ≠ key
      if old.metadata.resourceVersion ≠ o.metadata.resourceVersion then
        .updated old o :: diff left rest
      else diff left rest

/-- The notifications of an observation and the store after it. None if an object has no name; the
store then stays as it is. -/
def step? (s : Store k) : Observation k → Option (List (Notification k) × Store k)
  | .applied o => o.key?.map fun key =>
    match s.find? key with
    | none => ([.added o], s.put key o)
    | some old => ([.updated old o], s.put key o)
  | .deleted o => o.key?.map fun key => ([.deleted o], s.erase key)
  | .restarted os => (keyed? os).map fun entries => (diff s.entries entries, Store.ofList entries)

end Informer

end CustomResource
