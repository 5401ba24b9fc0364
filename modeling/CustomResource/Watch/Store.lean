import CustomResource.Resource.Object

/-!
# The store of observed objects

The objects that the controller knows, each under its namespace and name. They are listed in the
order of their keys as text.

## Main definitions

* `Key`: a namespace, if there is one, and a name.
* `Object.key?`: the key of an object that has a name.
* `Store`: the store, with `get?`, `put`, `erase`, `ofList`.
* `Store.find?`: an object under a key, or else the one of that name without a namespace.
-/

namespace CustomResource

/-- Under what an object is known. -/
structure Key where
  scope : Option String
  name : String
  deriving DecidableEq, Repr, Inhabited

namespace Key

/-- The namespace and the name with a slash between them, or only the name. -/
def text (k : Key) : String :=
  match k.scope with
  | some ns => ns ++ "/" ++ k.name
  | none => k.name

/-- The order of namespaces: none comes first. -/
def scopeBefore : Option String → Option String → Bool
  | none, some _ => true
  | some a, some b => a < b
  | _, none => false

/-- The order of keys: by their texts; of two keys of one text by the namespace. -/
def before (a b : Key) : Bool :=
  a.text < b.text || (a.text = b.text && scopeBefore a.scope b.scope)

/-- The key without its namespace. -/
def withoutScope (k : Key) : Key := { k with scope := none }

end Key

/-- The key of an object. An object without a name has none. -/
def Object.key? {k : Kind} (o : Object k) : Option Key :=
  o.metadata.name.map fun name => ⟨o.metadata.namespaceName, name⟩

/-- The objects of a kind that the controller knows. -/
structure Store (k : Kind) where
  entries : List (Key × Object k)
  deriving Repr, Inhabited

namespace Store

variable {k : Kind}

/-- A store without objects. -/
def empty : Store k := ⟨[]⟩

/-- The object under a key. -/
def get? (s : Store k) (key : Key) : Option (Object k) :=
  s.entries.lookup key

/-- Puts an object into some entries, in place of one under the same key. -/
def putEntry (key : Key) (o : Object k) : List (Key × Object k) → List (Key × Object k)
  | [] => [(key, o)]
  | (other, old) :: rest =>
    if key = other then (key, o) :: rest
    else if key.before other then (key, o) :: (other, old) :: rest
    else (other, old) :: putEntry key o rest

/-- The store with an object under a key. -/
def put (s : Store k) (key : Key) (o : Object k) : Store k := ⟨putEntry key o s.entries⟩

/-- The store without the object under a key. -/
def erase (s : Store k) (key : Key) : Store k := ⟨s.entries.filter fun e => e.1 ≠ key⟩

/-- The store of some objects; of two under one key the later one. -/
def ofList (entries : List (Key × Object k)) : Store k :=
  entries.foldl (fun s e => s.put e.1 e.2) empty

/-- The objects in the order of their keys. -/
def objects (s : Store k) : List (Object k) := s.entries.map (·.2)

/-- The number of objects. -/
def size (s : Store k) : Nat := s.entries.length

/-- The object under a key, or else the one of that name without a namespace. -/
def find? (s : Store k) (key : Key) : Option (Object k) :=
  (s.get? key).or (s.get? key.withoutScope)

end Store

end CustomResource
