import CustomResource.Proofs.Decode.Records
import CustomResource.Proofs.Definition.Validation

/-!
# The schema and the decoder of a kind

The schema of a kind and its decoder are made apart from each other, and both say which values are
objects of the kind. The apiserver stores what the schema admits, so what the decoder refuses of
that would break every list.

## Main results

* `Object.read_of_conforms`: what is valid for the schema of a kind is read by its decoder.
* `Object.encode_conforms`: what is written of an object is valid.
* `Kind.schema_agrees_with_decoder`: both, for the schema in the definition of the kind.
-/

namespace CustomResource

/-! ### What is valid is read -/

section Read

variable {v : Json} {depth : Nat}

theorem read_of_conforms_string {n : Schema.Notes}
    (hnull : n.nullable = false) (h : v.conformsTo (Schema.string n).encode = true) :
    ∃ s, Decoder.string depth v.toNode = .ok s := by
  obtain ⟨-, hnullable⟩ | ⟨s, rfl⟩ := Schema.conformsTo_string.mp h
  · simp [hnull] at hnullable
  · exact ⟨s, rfl⟩

theorem read_of_conforms_boolean {n : Schema.Notes}
    (hnull : n.nullable = false) (h : v.conformsTo (Schema.boolean n).encode = true) :
    ∃ b, Decoder.bool depth v.toNode = .ok b := by
  obtain ⟨-, hnullable⟩ | ⟨b, rfl⟩ := Schema.conformsTo_boolean.mp h
  · simp [hnull] at hnullable
  · exact ⟨b, rfl⟩

/-- An integer that is written as such is read; `1.0` would be valid and could not be read. -/
theorem read_of_conforms_int32 {n : Schema.Notes} (hnull : n.nullable = false)
    (hcanonical : v.hasCanonicalIntegers = true)
    (h : v.conformsTo (Schema.int32 n).encode = true) :
    ∃ i, Decoder.int32 depth v.toNode = .ok i := by
  obtain ⟨-, hnullable⟩ | ⟨x, i, rfl, hx, hi⟩ := Schema.conformsTo_int32.mp h
  · simp [hnull] at hnullable
  cases x with
  | int m =>
    obtain rfl := Option.some.inj hx
    have hbounds : -2147483648 ≤ m ∧ m ≤ 2147483647 := by simpa [Json.isInt32] using hi
    refine ⟨Int32.ofInt m, ?_⟩
    simp [Decoder.int32, Json.toNode, Json.Lexeme.ofValue, Decoder.integer, hbounds, Except.map]
  | float x =>
    have hx : x.integer? = some i := hx
    simp [Json.hasCanonicalIntegers, Json.all, hx, hi] at hcanonical

/-- A list of texts that is valid is read, if one more level of nesting is left. -/
theorem read_of_conforms_strings {n m : Schema.Notes} {left : Nat}
    (hdepth : Decoder.descend depth = .ok left) (hnull : n.nullable = false)
    (hitem : m.nullable = false)
    (h : v.conformsTo (Schema.array n (.string m)).encode = true) :
    ∃ items, Decoder.strings depth v.toNode = .ok items := by
  obtain ⟨-, hnullable⟩ | ⟨values, rfl, hvalues⟩ := Schema.conformsTo_array.mp h
  · simp [hnull] at hnullable
  have hitems : ∃ items, List.Forall₂
      (fun value item => Decoder.string left value.toNode = .ok item) values items := by
    clear h
    induction values with
    | nil => exact ⟨[], .nil⟩
    | cons value values ih =>
      obtain ⟨hvalue, hrest⟩ := List.forall_mem_cons.mp hvalues
      obtain ⟨s, hs⟩ : ∃ s, Decoder.string left value.toNode = .ok s :=
        read_of_conforms_string hitem hvalue
      obtain ⟨items, hread⟩ := ih hrest
      exact ⟨s :: items, .cons hs hread⟩
  obtain ⟨items, hitems⟩ := hitems
  exact ⟨items, Decoder.list_array hdepth hitems⟩

variable {left : Nat}

theorem SampleSpec.read_of_conforms {title description : String}
    (hdepth : Decoder.descend depth = .ok left) (hkeys : v.hasDistinctKeys = true)
    (h : v.conformsTo (Schema.sample description).encode = true) :
    ∃ s, (SampleSpec.record title).strict depth v.toNode = .ok s := by
  obtain ⟨ms, rfl, hrequired, hvalid⟩ := Schema.exists_members_of_conformsTo h rfl
  have hnodup := (Json.hasDistinctKeys_object.mp hkeys).1
  have hnamed : (SampleSpec.record title).Named := by
    intro f
    cases f <;> rfl
  have hread : ∀ f value, ((SampleSpec.record title).name f, value) ∈ ms →
      ∃ x, (SampleSpec.record title).read f left value.toNode = .ok x := by
    intro f value hmem
    cases f with
    | foo => exact read_of_conforms_string rfl (hvalid "foo" value _ hmem rfl)
    | bar => exact read_of_conforms_boolean rfl (hvalid "bar" value _ hmem rfl)
  obtain ⟨foo, hfoo⟩ := Record.exists_found hnodup hread (f := .foo) (hrequired "foo" (by simp))
  obtain ⟨bar, hbar⟩ := Record.exists_found hnodup hread (f := .bar) (hrequired "bar" (by simp))
  refine ⟨⟨foo, bar⟩, ?_⟩
  rw [Record.strict_object hdepth (Record.members_memberNodes hnamed true hnodup hread)]
  simp only [SampleSpec.record, Slots.require] at hfoo hbar ⊢
  rw [hfoo, hbar]
  rfl

theorem PodSetSpec.read_of_conforms {title description : String}
    (hdepth : Decoder.descend depth = .ok left) (hroom : 1 < left)
    (hkeys : v.hasDistinctKeys = true) (hcanonical : v.hasCanonicalIntegers = true)
    (h : v.conformsTo (Schema.podSet description).encode = true) :
    ∃ s, (PodSetSpec.record title).strict depth v.toNode = .ok s := by
  obtain ⟨ms, rfl, hrequired, hvalid⟩ := Schema.exists_members_of_conformsTo h rfl
  have hnodup := (Json.hasDistinctKeys_object.mp hkeys).1
  have hcanonical := Json.hasCanonicalIntegers_object.mp hcanonical
  have hleft : Decoder.descend left = .ok (left - 1) :=
    Decoder.descend_eq_ok.mpr ⟨by omega, by omega⟩
  have hnamed : (PodSetSpec.record title).Named := by
    intro f
    cases f <;> rfl
  have hread : ∀ f value, ((PodSetSpec.record title).name f, value) ∈ ms →
      ∃ x, (PodSetSpec.record title).read f left value.toNode = .ok x := by
    intro f value hmem
    cases f with
    | desired =>
      exact read_of_conforms_int32 rfl (hcanonical _ hmem) (hvalid "desired" value _ hmem rfl)
    | current =>
      exact read_of_conforms_int32 rfl (hcanonical _ hmem) (hvalid "current" value _ hmem rfl)
    | podList => exact read_of_conforms_strings hleft rfl rfl (hvalid "podList" value _ hmem rfl)
  obtain ⟨desired, hdesired⟩ :=
    Record.exists_found hnodup hread (f := .desired) (hrequired "desired" (by simp))
  rw [Record.strict_object hdepth (Record.members_memberNodes hnamed true hnodup hread)]
  simp only [PodSetSpec.record, Slots.require] at hdesired ⊢
  rw [hdesired]
  exact ⟨_, rfl⟩

theorem Spec.read_of_conforms {k : Kind} (hdepth : Decoder.descend depth = .ok left)
    (hroom : 1 < left) (hkeys : v.hasDistinctKeys = true)
    (hcanonical : v.hasCanonicalIntegers = true) (h : v.conformsTo k.specSchema.encode = true) :
    ∃ s, Spec.decode k depth v.toNode = .ok s :=
  match k with
  | .example => SampleSpec.read_of_conforms hdepth hkeys h
  | .test => SampleSpec.read_of_conforms hdepth hkeys h
  | .jinghzhu => PodSetSpec.read_of_conforms hdepth hroom hkeys hcanonical h

/-- A status is read however its state is, as long as every text is read as a state. -/
theorem Status.read_of_conforms {state : Decoder State}
    (hstate : ∀ depth s, ∃ x, state depth (Json.string s).toNode = .ok x)
    (hdepth : Decoder.descend depth = .ok left) (hkeys : v.hasDistinctKeys = true)
    (h : v.conformsTo Schema.status.encode = true) :
    ∃ s, Decoder.optional (Status.record state).strict depth v.toNode = .ok s := by
  obtain ⟨rfl, -⟩ | ⟨ms, rfl, -, hvalid⟩ := Schema.conformsTo_object.mp h
  · exact ⟨none, rfl⟩
  have hnodup := (Json.hasDistinctKeys_object.mp hkeys).1
  have hnamed : (Status.record state).Named := by
    intro f
    cases f <;> rfl
  have hread : ∀ f value, ((Status.record state).name f, value) ∈ ms →
      ∃ x, (Status.record state).read f left value.toNode = .ok x := by
    intro f value hmem
    cases f with
    | state =>
      obtain ⟨-, hnullable⟩ | ⟨s, rfl⟩ :=
        Schema.conformsTo_string.mp (hvalid "state" value _ hmem rfl)
      · simp at hnullable
      · exact hstate left s
    | message => exact read_of_conforms_string rfl (hvalid "message" value _ hmem rfl)
  have hstrict := Record.strict_object hdepth
    (Record.members_memberNodes hnamed true hnodup hread)
  exact ⟨_, Decoder.optional_eq_some nofun hstrict⟩

theorem Object.read_of_conforms {k : Kind} {status : Decoder Status}
    (hstatus : ∀ {v : Json}, v.hasDistinctKeys = true → v.conformsTo Schema.status.encode = true →
      ∃ s, Decoder.optional status left v.toNode = .ok s)
    (hdepth : Decoder.descend depth = .ok left) (hroom : 2 < left)
    (hkeys : v.hasDistinctKeys = true) (hcanonical : v.hasCanonicalIntegers = true)
    (hmetadata : ∃ value m, v.get? "metadata" = some value ∧
      Metadata.decode left value.toNode = .ok m)
    (h : v.conformsTo k.schema.encode = true) :
    ∃ o, (Object.record k status).strict depth v.toNode = .ok o := by
  obtain ⟨ms, rfl, hrequired, hvalid⟩ := Schema.exists_members_of_conformsTo h rfl
  obtain ⟨hnodup, hkeys⟩ := Json.hasDistinctKeys_object.mp hkeys
  have hcanonical := Json.hasCanonicalIntegers_object.mp hcanonical
  obtain ⟨metaValue, m, hmember, hm⟩ := hmetadata
  have hleft : Decoder.descend left = .ok (left - 1) :=
    Decoder.descend_eq_ok.mpr ⟨by omega, by omega⟩
  have hnamed : (Object.record k status).Named := by
    intro f
    cases f <;> rfl
  have hread : ∀ f value, ((Object.record k status).name f, value) ∈ ms →
      ∃ x, (Object.record k status).read f left value.toNode = .ok x := by
    intro f value hmem
    cases f with
    | metadata =>
      obtain rfl : metaValue = value :=
        Option.some.inj (hmember.symm.trans ((Json.lookup_eq_some_iff_mem hnodup).mpr hmem))
      exact ⟨m, hm⟩
    | spec =>
      exact Spec.read_of_conforms hleft (by omega) (hkeys _ hmem) (hcanonical _ hmem)
        (hvalid "spec" value _ hmem rfl)
    | status => exact hstatus (hkeys _ hmem) (hvalid "status" value _ hmem rfl)
  obtain ⟨metadata, hmetadata⟩ := Record.exists_found hnodup hread (f := .metadata)
    (Option.isSome_of_eq_some hmember)
  obtain ⟨spec, hspec⟩ :=
    Record.exists_found hnodup hread (f := .spec) (hrequired "spec" (by simp))
  rw [Record.strict_object hdepth (Record.members_memberNodes hnamed true hnodup hread)]
  simp only [Object.record, Slots.require] at hmetadata hspec ⊢
  rw [hmetadata, hspec]
  exact ⟨_, rfl⟩

end Read

/-! ### What is written is valid -/

theorem Json.isInt32_toInt (n : Int32) : Json.isInt32 n.toInt = true := by
  have := n.le_toInt
  have := n.toInt_lt
  simp only [Json.isInt32, Bool.and_eq_true, decide_eq_true_eq]
  omega

theorem SampleSpec.encode_conforms (description : String) (s : SampleSpec) :
    s.encode.conformsTo (Schema.sample description).encode = true := by
  refine Schema.conformsTo_of_members ?_ ?_
  · simp
  · intro name value schema hmem hschema
    simp only [List.mem_cons, Prod.mk.injEq, List.not_mem_nil, or_false] at hmem
    obtain ⟨rfl, rfl⟩ | ⟨rfl, rfl⟩ := hmem
    · obtain rfl := Option.some.inj hschema
      exact Schema.conformsTo_string.mpr (Or.inr ⟨_, rfl⟩)
    · obtain rfl := Option.some.inj hschema
      exact Schema.conformsTo_boolean.mpr (Or.inr ⟨_, rfl⟩)

theorem conformsTo_int32_int (n : Schema.Notes) (i : Int32) :
    (Json.int i.toInt).conformsTo (Schema.int32 n).encode = true :=
  Schema.conformsTo_int32.mpr (Or.inr ⟨_, _, rfl, rfl, Json.isInt32_toInt i⟩)

theorem conformsTo_ofStrings (n m : Schema.Notes) (items : List String) :
    (Json.ofStrings items).conformsTo (Schema.array n (.string m)).encode = true := by
  refine Schema.conformsTo_array.mpr (Or.inr ⟨_, rfl, fun value hvalue => ?_⟩)
  obtain ⟨s, -, rfl⟩ := List.mem_map.mp hvalue
  exact Schema.conformsTo_string.mpr (Or.inr ⟨s, rfl⟩)

theorem PodSetSpec.encode_conforms (description : String) (s : PodSetSpec) :
    s.encode.conformsTo (Schema.podSet description).encode = true := by
  refine Schema.conformsTo_of_members ?_ ?_
  · simp
  · intro name value schema hmem hschema
    simp only [List.mem_cons, Prod.mk.injEq, List.not_mem_nil, or_false] at hmem
    obtain ⟨rfl, rfl⟩ | ⟨rfl, rfl⟩ | ⟨rfl, rfl⟩ := hmem
    · obtain rfl := Option.some.inj hschema
      exact conformsTo_int32_int _ _
    · obtain rfl := Option.some.inj hschema
      exact conformsTo_int32_int _ _
    · obtain rfl := Option.some.inj hschema
      exact conformsTo_ofStrings _ _ _

theorem Status.encode_conforms (s : Status) :
    s.encode.conformsTo Schema.status.encode = true := by
  refine Schema.conformsTo_of_members (by simp) ?_
  intro name value schema hmem hschema
  simp only [List.mem_cons, Prod.mk.injEq, List.not_mem_nil, or_false] at hmem
  obtain ⟨rfl, rfl⟩ | ⟨rfl, rfl⟩ := hmem
  · obtain rfl := Option.some.inj hschema
    exact Schema.conformsTo_string.mpr (Or.inr ⟨_, rfl⟩)
  · obtain rfl := Option.some.inj hschema
    exact Schema.conformsTo_string.mpr (Or.inr ⟨_, rfl⟩)

theorem Spec.encode_conforms : (k : Kind) → (s : k.Spec) →
    (Spec.encode k s).conformsTo k.specSchema.encode = true
  | .example, s => SampleSpec.encode_conforms _ s
  | .test, s => SampleSpec.encode_conforms _ s
  | .jinghzhu, s => PodSetSpec.encode_conforms _ s

/-- The version, the kind and the metadata of an object are no properties of the schema. -/
theorem Object.encode_conforms {k : Kind} (o : Object k) :
    o.encode.conformsTo k.schema.encode = true := by
  refine Schema.conformsTo_of_members (by simp) ?_
  intro name value schema hmem hschema
  simp only [List.cons_append, List.nil_append, List.mem_cons, Prod.mk.injEq,
    Json.mem_optional, Option.map_eq_some_iff] at hmem
  obtain ⟨rfl, rfl⟩ | ⟨rfl, rfl⟩ | ⟨rfl, rfl⟩ | ⟨rfl, rfl⟩ | ⟨rfl, s, hs, rfl⟩ := hmem
  · exact nomatch hschema
  · exact nomatch hschema
  · exact nomatch hschema
  · obtain rfl := Option.some.inj hschema
    exact Spec.encode_conforms k o.spec
  · obtain rfl := Option.some.inj hschema
    exact s.encode_conforms

/-! ### The two agree -/

theorem State.read_string (carried : Json.Node → Except DecodeError Unit) (depth : Nat)
    (s : String) : Decoder.variantWith carried (fun name => .ok (State.ofName name)) depth
      (Json.string s).toNode = .ok (State.ofName s) := rfl

/-- **The schema of a kind and its decoder agree.** A value that is valid for the schema in the
definition of the kind is accepted by the decoder, from every text of the value and also where it
has been set aside, provided that its metadata is, that no key is repeated, and that integers are
written as such. What is written of an object of the kind is valid. -/
theorem Kind.schema_agrees_with_decoder (k : Kind) : ∃ schema, k.definition.schema? = some schema ∧
    (∀ v : Json, v.hasDistinctKeys = true → v.hasCanonicalIntegers = true →
      (∃ value m, v.get? "metadata" = some value ∧
        Metadata.decode (Decoder.startDepth - 1) value.toNode = .ok m) →
      v.conformsTo schema = true →
      (∃ o, Decoder.ofJson (Object.decode k) v = .ok o ∧
        ∀ text, Json.Document.ofText text = ⟨v.toNode, false⟩ →
          Decoder.ofText (Object.decode k) text = .ok o) ∧
      ∃ o, Decoder.ofJson (Object.decodeAside k) v = .ok o) ∧
    ∀ o : Object k, o.encode.conformsTo schema = true := by
  refine ⟨_, k.schema?_definition, ?_, Object.encode_conforms⟩
  intro v hkeys hcanonical hmetadata hvalid
  have hdepth : Decoder.descend Decoder.startDepth = .ok (Decoder.startDepth - 1) := rfl
  have hbelow : Decoder.descend (Decoder.startDepth - 1) = .ok (Decoder.startDepth - 2) := rfl
  have hread : ∀ carried, ∃ o, (Object.record k (Status.record (Decoder.variantWith carried
      fun name => .ok (State.ofName name))).strict).strict Decoder.startDepth v.toNode = .ok o :=
    fun carried => Object.read_of_conforms
      (fun hkeys hvalid => Status.read_of_conforms
        (fun depth s => ⟨_, State.read_string carried depth s⟩) hbelow hkeys hvalid)
      hdepth (by decide) hkeys hcanonical hmetadata hvalid
  refine ⟨?_, hread Decoder.nothingAside⟩
  obtain ⟨o, ho⟩ := hread Decoder.nothing
  have hobject : Object.decode k Decoder.startDepth v.toNode = .ok o := ho
  refine ⟨o, hobject, fun text htext => ?_⟩
  rw [Decoder.ofText, htext, Decoder.ofDocument]
  change (Object.decode k Decoder.startDepth v.toNode).bind _ = _
  rw [hobject]
  rfl

/-- A set of pods as someone else might write it: without counts that have a default, with a status
that is null, and with a member that no one knows. -/
def foreignPodSet : Json :=
  .object
    [ ("status", .null),
      ("spec", .object [("desired", .int 3), ("podList", .array [.string "a"])]),
      ("metadata", .object [("name", .string "x")]),
      ("weight", .number (.float ⟨false, 3, -1⟩)) ]

theorem Kind.schema_agrees_with_decoder_foreignPodSet :
    foreignPodSet.hasDistinctKeys = true ∧ foreignPodSet.hasCanonicalIntegers = true ∧
    (∃ value m, foreignPodSet.get? "metadata" = some value ∧
      Metadata.decode (Decoder.startDepth - 1) value.toNode = .ok m) ∧
    ∃ schema, Kind.jinghzhu.definition.schema? = some schema ∧
      foreignPodSet.conformsTo schema = true ∧
      ∃ o, Decoder.ofJson (Object.decode .jinghzhu) foreignPodSet = .ok o := by
  have hkeys : foreignPodSet.hasDistinctKeys = true := by decide
  have hcanonical : foreignPodSet.hasCanonicalIntegers = true := by decide
  have hmetadata : ∃ value m, foreignPodSet.get? "metadata" = some value ∧
      Metadata.decode (Decoder.startDepth - 1) value.toNode = .ok m :=
    ⟨_, .named "x", rfl, rfl⟩
  obtain ⟨schema, hschema, hread, -⟩ := Kind.jinghzhu.schema_agrees_with_decoder
  have hvalid : foreignPodSet.conformsTo schema = true := by
    obtain rfl := Option.some.inj (hschema.symm.trans Kind.jinghzhu.schema?_definition)
    decide
  obtain ⟨⟨o, ho, -⟩, -⟩ := hread foreignPodSet hkeys hcanonical hmetadata hvalid
  exact ⟨hkeys, hcanonical, hmetadata, schema, hschema, hvalid, o, ho⟩

end CustomResource
