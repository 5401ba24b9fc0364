import CustomResource.Decode.Record
import CustomResource.Resource.Kind
import CustomResource.Resource.Metadata

/-!
# Specs

The desired state of a resource. Its type depends on the kind: two kinds have a text and a flag, one
tracks a set of pods.

## Main definitions

* `SampleSpec`, `PodSetSpec`: the types, each with its `record` and `encode`.
* `Kind.Spec`: the type of the spec of a kind.
* `Spec.decode`, `Spec.encode`: a spec as JSON.
-/

namespace CustomResource

/-! ### A text and a flag -/

/-- The desired state of a sample. -/
structure SampleSpec where
  foo : String
  bar : Bool
  deriving DecidableEq, Repr, Inhabited

namespace SampleSpec

/-- The fields of the spec of a sample. -/
inductive Field where
  | foo
  | bar
  deriving DecidableEq, Repr

/-- The names of the fields. -/
def Field.name : Field → String
  | .foo => "foo"
  | .bar => "bar"

/-- The description of the spec as a record with that title. -/
def record (title : String) : Record Field SampleSpec where
  title := title
  fields := [.foo, .bar]
  name := Field.name
  Value
    | .foo => String
    | .bar => Bool
  read
    | .foo => Decoder.string
    | .bar => Decoder.bool
  mayEnd _ := false
  build slots := do
    let foo ← slots.require Field.name .foo
    let bar ← slots.require Field.name .bar
    return { foo, bar }

/-- The spec as JSON. -/
def encode (s : SampleSpec) : Json :=
  .object [("foo", .string s.foo), ("bar", .bool s.bar)]

end SampleSpec

/-! ### A set of pods -/

/-- The desired state of a set of pods: how many there should be, how many there are, and their
names. -/
structure PodSetSpec where
  desired : Int32
  current : Int32 := 0
  podList : List String := []
  deriving DecidableEq, Repr, Inhabited

namespace PodSetSpec

/-- The fields of the spec of a set of pods. -/
inductive Field where
  | desired
  | current
  | podList
  deriving DecidableEq, Repr

/-- The names of the fields. -/
def Field.name : Field → String
  | .desired => "desired"
  | .current => "current"
  | .podList => "podList"

/-- The description of the spec as a record with that title. Only the desired count is required. -/
def record (title : String) : Record Field PodSetSpec where
  title := title
  fields := [.desired, .current, .podList]
  name := Field.name
  Value
    | .desired => Int32
    | .current => Int32
    | .podList => List String
  read
    | .desired => Decoder.int32
    | .current => Decoder.int32
    | .podList => Decoder.strings
  mayEnd
    | .desired => false
    | .current => true
    | .podList => true
  build slots := do
    let desired ← slots.require Field.name .desired
    return {
      desired
      current := (slots .current).getD 0
      podList := (slots .podList).getD [] }

/-- The spec as JSON. -/
def encode (s : PodSetSpec) : Json :=
  .object [("desired", .int s.desired.toInt), ("current", .int s.current.toInt),
    ("podList", Json.ofStrings s.podList)]

end PodSetSpec

/-! ### The spec of a kind -/

/-- The type of the spec of a kind. -/
def Kind.Spec : Kind → Type
  | .example => SampleSpec
  | .test => SampleSpec
  | .jinghzhu => PodSetSpec

instance (k : Kind) : DecidableEq k.Spec :=
  match k with
  | .example => inferInstanceAs (DecidableEq SampleSpec)
  | .test => inferInstanceAs (DecidableEq SampleSpec)
  | .jinghzhu => inferInstanceAs (DecidableEq PodSetSpec)

instance (k : Kind) : Repr k.Spec :=
  match k with
  | .example => inferInstanceAs (Repr SampleSpec)
  | .test => inferInstanceAs (Repr SampleSpec)
  | .jinghzhu => inferInstanceAs (Repr PodSetSpec)

instance (k : Kind) : Inhabited k.Spec :=
  match k with
  | .example => inferInstanceAs (Inhabited SampleSpec)
  | .test => inferInstanceAs (Inhabited SampleSpec)
  | .jinghzhu => inferInstanceAs (Inhabited PodSetSpec)

namespace Spec

/-- Reads the spec of a kind. -/
def decode : (k : Kind) → Decoder k.Spec
  | .example => (SampleSpec.record "struct ExampleSpec").strict
  | .test => (SampleSpec.record "struct TestSpec").strict
  | .jinghzhu => (PodSetSpec.record "struct JinghzhuSpec").strict

/-- The spec of a kind as JSON. -/
def encode : (k : Kind) → k.Spec → Json
  | .example, s => SampleSpec.encode s
  | .test, s => SampleSpec.encode s
  | .jinghzhu, s => PodSetSpec.encode s

/-- The spec of the instance that the demonstration creates. -/
def sample : (k : Kind) → k.Spec
  | .example => ({ foo := "hello", bar := true } : SampleSpec)
  | .test => ({ foo := "hello", bar := true } : SampleSpec)
  | .jinghzhu => ({ desired := 1 } : PodSetSpec)

end Spec

end CustomResource
