import CustomResource.Proofs.Resource.Metadata
import CustomResource.Resource.Object

/-!
# Objects written and read again

An object that has been read from the text of someone else is sent back as the text that is written
for it, and read by others from there. Nothing gets lost on that way but the fractions of seconds in
its timestamps, which are read and not written.

## Main definitions

* `Object.toSecond`: an object without fractions of seconds.

## Main results

* `Object.stable_decode`: an object is read back to the second.
* `Object.reencoding_stable`: so it is from its text, and what is written stays the same.
-/

namespace CustomResource

open Decoder

/-! ### Status -/

theorem State.ofName_name (s : State) : State.ofName s.name = s := by
  cases s <;> decide

/-- The name that stands for all unknown states is itself the name of none. -/
theorem State.decode_encode (depth : Nat) (s : State) :
    State.decode depth s.encode.toNode = .ok s :=
  congrArg Except.ok s.ofName_name

namespace Status

/-- How a status is written. -/
def form : (record State.decode).Form encode where
  others := []
  values s
    | .state => some s.state.encode
    | .message => some (.string s.message)
  slots s
    | .state => some s.state
    | .message => some s.message
  named f := by cases f <;> rfl
  nodup_fields := by decide
  others_no_field := nofun
  encode_eq _ := rfl
  build_slots _ := rfl

theorem rel_values_slots (left : Nat) (s : Status) (f : Field) :
    Option.Rel (fun value x => (record State.decode).read f left value.toNode = .ok x)
      (form.values s f) (form.slots s f) := by
  cases f with
  | state => exact .some (State.decode_encode left s.state)
  | message => exact .some rfl

theorem decode_encode {depth left : Nat} (hdepth : descend depth = .ok left) (s : Status) :
    decode depth s.encode.toNode = .ok s :=
  form.strict_encode hdepth (rel_values_slots left s)

theorem stable_decode (depth : Nat) : Stable decode encode id depth :=
  form.stable_strict fun left _ _ _ s _ _ => rel_values_slots left s

theorem isExact_encode (s : Status) : s.encode.isExact = true := rfl

end Status

/-! ### Specs -/

namespace SampleSpec

/-- How the spec of a sample is written. -/
def form (title : String) : (record title).Form encode where
  others := []
  values s
    | .foo => some (.string s.foo)
    | .bar => some (.bool s.bar)
  slots s
    | .foo => some s.foo
    | .bar => some s.bar
  named f := by cases f <;> rfl
  nodup_fields := by simp [record]
  others_no_field := nofun
  encode_eq _ := rfl
  build_slots _ := rfl

theorem stable_decode (title : String) (depth : Nat) :
    Stable (record title).strict encode id depth := by
  refine (form title).stable_strict fun left _ nodes found s _ _ f => ?_
  cases f <;> exact .some rfl

end SampleSpec

namespace PodSetSpec

/-- How the spec of a set of pods is written. -/
def form (title : String) : (record title).Form encode where
  others := []
  values s
    | .desired => some (.int s.desired.toInt)
    | .current => some (.int s.current.toInt)
    | .podList => some (Json.ofStrings s.podList)
  slots s
    | .desired => some s.desired
    | .current => some s.current
    | .podList => some s.podList
  named f := by cases f <;> rfl
  nodup_fields := by simp [record]
  others_no_field := nofun
  encode_eq _ := rfl
  build_slots _ := rfl

/-- The names of the pods are written also where they have been missing, so there has to be room for
a list. -/
theorem stable_decode (title : String) {depth : Nat} (hroom : 2 < depth) :
    Stable (record title).strict encode id depth := by
  refine (form title).stable_strict fun left hdepth nodes found s _ _ f => ?_
  have hleft : descend left = .ok (left - 1) := by
    obtain ⟨rfl, -⟩ := descend_eq_ok.mp hdepth
    exact descend_eq_ok.mpr ⟨by omega, by omega⟩
  cases f with
  | desired => exact .some (int32_toNode left s.desired)
  | current => exact .some (int32_toNode left s.current)
  | podList => exact .some (strings_ofStrings hleft s.podList)

end PodSetSpec

theorem Spec.stable_decode {depth : Nat} (hroom : 2 < depth) :
    (k : Kind) → Stable (Spec.decode k) (Spec.encode k) id depth
  | .example => SampleSpec.stable_decode _ depth
  | .test => SampleSpec.stable_decode _ depth
  | .jinghzhu => PodSetSpec.stable_decode _ hroom

theorem Spec.isExact_encode : (k : Kind) → (s : k.Spec) → (Spec.encode k s).isExact = true
  | .example, _ => rfl
  | .test, _ => rfl
  | .jinghzhu, s => by
    refine (PodSetSpec.form "").isExact_encode nofun fun f value hvalue => ?_
    cases f with
    | desired =>
      obtain rfl := Option.some.inj hvalue
      exact Json.isExact_int32 s.desired
    | current =>
      obtain rfl := Option.some.inj hvalue
      exact Json.isExact_int32 s.current
    | podList =>
      obtain rfl := Option.some.inj hvalue
      exact Json.isExact_ofStrings s.podList

/-! ### Objects -/

namespace Object

variable {k : Kind}

/-- An object without fractions of seconds. -/
def toSecond (o : Object k) : Object k := { o with metadata := o.metadata.toSecond }

/-- How an object is written. Its version and kind are no fields. -/
def form (k : Kind) : (record k Status.decode).Form encode where
  others := [("apiVersion", .string k.apiVersion), ("kind", .string k.name)]
  values o
    | .metadata => some o.metadata.encode
    | .spec => some (Spec.encode k o.spec)
    | .status => o.status.map Status.encode
  slots o
    | .metadata => some o.metadata
    | .spec => some o.spec
    | .status => o.status.map some
  named f := by cases f <;> rfl
  nodup_fields := by simp [record]
  others_no_field := by simp [Record.find?, record, Field.name]
  encode_eq o := by simp [encode, Record.written, record, Json.optional, Field.name]
  build_slots o := by
    simp only [record, Slots.require, join_map_some]
    rfl

theorem build_eq_ok {slots : Slots (record k Status.decode).Value} {o : Object k}
    (h : (record k Status.decode).build slots = .ok o) :
    slots .metadata = some o.metadata ∧ slots .spec = some o.spec ∧
      (slots .status).join = o.status := by
  simp only [record, Slots.require] at h
  cases hmetadata : slots .metadata with
  | none => simp [hmetadata, bind, Except.bind] at h
  | some metadata =>
    cases hspec : slots .spec with
    | none => simp [hmetadata, hspec, bind, Except.bind] at h
    | some spec =>
      rw [hmetadata, hspec] at h
      obtain rfl := Except.ok.inj h
      exact ⟨rfl, rfl, rfl⟩

/-- **An object is read back** to the second. -/
theorem stable_decode {depth : Nat} (hroom : 3 < depth) :
    Stable (decode k) encode toSecond depth := by
  refine (form k).stable_strict fun left hdepth nodes found o hbuild hfound f => ?_
  obtain ⟨hmetadata, hspec, hstatus⟩ := build_eq_ok hbuild
  cases f with
  | metadata =>
    obtain ⟨child, -, hchild⟩ := hfound .metadata _ hmetadata
    exact .some ((Metadata.stable_decode left).read hchild)
  | spec =>
    obtain ⟨child, -, hchild⟩ := hfound .spec _ hspec
    have hleft : 2 < left := by
      obtain ⟨rfl, -⟩ := descend_eq_ok.mp hdepth
      omega
    exact .some ((Spec.stable_decode hleft k).read hchild)
  | status =>
    have hrel := (Status.stable_decode left).optional_rel_id (hfound .status)
    rwa [hstatus] at hrel

/-- The fractions of seconds are not written. -/
theorem encode_toSecond (o : Object k) : o.toSecond.encode = o.encode := by
  rw [encode, encode, toSecond, Metadata.encode_toSecond]

/-- An object loses nothing exactly if no timestamp in it has a fraction of a second. -/
theorem toSecond_eq_self_iff {o : Object k} :
    o.toSecond = o ↔ ∀ t ∈ o.metadata.timestamps, t.time.nanosecond = 0 := by
  rw [← Metadata.toSecond_eq_self_iff]
  cases o
  simp [toSecond]

/-- The metadata of an object that has been read has been read from a part of the document. -/
theorem exists_metadata_of_decode {depth : Nat} {node : Json.Node} {o : Object k}
    (h : decode k depth node = .ok o) :
    ∃ left, descend depth = .ok left ∧
      ∃ child ∈ node.children, Metadata.decode left child = .ok o.metadata := by
  obtain ⟨left, found, hdepth, hbuild, hfound⟩ := Record.strict_eq_ok h
  obtain ⟨hmetadata, -, -⟩ := build_eq_ok hbuild
  exact ⟨left, hdepth, hfound .metadata _ hmetadata⟩

/-- An object is read from its text if its metadata is. -/
theorem isExact_encode {o : Object k} (h : o.metadata.encode.isExact = true) :
    o.encode.isExact = true := by
  have hothers : ∀ m ∈ (form k).others, m.2.isExact = true := by
    simp [form, Json.isExact, Json.all]
  refine (form k).isExact_encode hothers fun f value hvalue => ?_
  cases f with
  | metadata =>
    obtain rfl := Option.some.inj hvalue
    exact h
  | spec =>
    obtain rfl := Option.some.inj hvalue
    exact Spec.isExact_encode k o.spec
  | status =>
    obtain ⟨s, -, rfl⟩ := Option.map_eq_some_iff.mp hvalue
    exact s.isExact_encode

/-- An object without doubles is read from its text. -/
theorem isExact_of_decode {depth : Nat} {node : Json.Node} {o : Object k} (hnode : node.InRange)
    (h : decode k depth node = .ok o) (ho : o.metadata.hasNoDoubles = true) :
    o.encode.isExact = true := by
  obtain ⟨left, -, child, hmem, hchild⟩ := exists_metadata_of_decode h
  exact isExact_encode (Metadata.isExact_of_decode (hnode.of_mem_children hmem) hchild ho)

/-- What is read from a text is read again, to the second, from the text that is written for it. -/
theorem ofText_render_encode {text : String} {o : Object k} (h : ofText (decode k) text = .ok o)
    (ho : o.metadata.hasNoDoubles = true) :
    ofText (decode k) o.encode.render = .ok o.toSecond := by
  have hexact : o.encode.isExact = true :=
    isExact_of_decode (Json.Document.inRange_ofText text) (ofText_eq_ok h) ho
  exact (stable_decode (by decide)).ofText_render h hexact

/-- **Objects are stable under being written and read.** An object that has been read from a text is
read again from the text that is written for it, to the second, and written once more it gives the
same text. It is the same object exactly if no timestamp in it has a fraction of a second. Doubles
among the fields that managers own are left out. -/
theorem reencoding_stable {text : String} {o : Object k} (h : ofText (decode k) text = .ok o)
    (ho : o.metadata.hasNoDoubles = true) :
    ofText (decode k) o.encode.render = .ok o.toSecond ∧
      o.toSecond.encode.render = o.encode.render ∧
      (o.toSecond = o ↔ ∀ t ∈ o.metadata.timestamps, t.time.nanosecond = 0) := by
  refine ⟨ofText_render_encode h ho, ?_, toSecond_eq_self_iff⟩
  rw [encode_toSecond]

/-- An object as someone else might write it: created half a second after noon, two hours ahead of
UTC, with labels in another order, its spec as an array, and in a state that no one knows. -/
def foreignText : String :=
  "\x7b\"metadata\":\x7b\"name\":\"x\",\"creationTimestamp\":\"2024-03-01T12:00:00.5+02:00\"," ++
    "\"labels\":\x7b\"b\":\"1\",\"a\":\"2\"\x7d," ++
    "\"managedFields\":[\x7b\"fieldsV1\":[-7]\x7d]\x7d," ++
    "\"spec\":[\"hello\",true],\"status\":\x7b\"state\":\"Odd\"\x7d\x7d"

theorem exists_of_foreignText : ∃ o : Object .test, ofText (decode .test) foreignText = .ok o ∧
    o.metadata.hasNoDoubles = true ∧
    ∃ t ∈ o.metadata.timestamps, t.time.nanosecond = 500000000 := by
  have hcheck : (ofText (decode .test) foreignText).toOption.any (fun o =>
      o.metadata.hasNoDoubles && o.metadata.timestamps.any fun t =>
        t.time.nanosecond = 500000000) = true := by
    -- The pieces are turned into characters here: the kernel would do so byte by byte.
    unfold foreignText ofText Json.Document.ofText
    simp only [String.toList_append]
    rw [String.toList_ofList, String.toList_ofList, String.toList_ofList, String.toList_ofList]
    decide +kernel
  obtain ⟨o, hread, hcheck⟩ := exists_of_any hcheck
  exact ⟨o, hread, by simpa using hcheck⟩

theorem reencoding_stable_foreignText : ∃ o : Object .test,
    ofText (decode .test) foreignText = .ok o ∧ o.metadata.hasNoDoubles = true ∧
    ofText (decode .test) o.encode.render = .ok o.toSecond ∧
    o.toSecond.encode.render = o.encode.render := by
  obtain ⟨o, hread, hplain, -⟩ := exists_of_foreignText
  obtain ⟨hagain, hsame, -⟩ := reencoding_stable hread hplain
  exact ⟨o, hread, hplain, hagain, hsame⟩

/-- The half second is lost, so that it is not the same object that is read again. -/
theorem foreignText_loses_fraction : ∃ o : Object .test,
    ofText (decode .test) foreignText = .ok o ∧ o.metadata.hasNoDoubles = true ∧
    ofText (decode .test) o.encode.render ≠ .ok o := by
  obtain ⟨o, hread, hplain, t, ht, hfraction⟩ := exists_of_foreignText
  refine ⟨o, hread, hplain, fun hsame => ?_⟩
  have hself : o.toSecond = o :=
    Except.ok.inj ((ofText_render_encode hread hplain).symm.trans hsame)
  have hzero := toSecond_eq_self_iff.mp hself t ht
  omega

end Object

end CustomResource
