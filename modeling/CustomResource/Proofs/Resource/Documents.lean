import CustomResource.Client.Instances
import CustomResource.Proofs.Decode.Members
import CustomResource.Proofs.Resource.Reencoding

/-!
# Objects in documents

An apiserver keeps an object as a document that may hold more than is read of it. What is read of
such a document depends only on its metadata, its spec and its status, so it is enough to follow
these three when something is written to it: as a whole, by a patch of the spec, or by a patch of
the status. Some fields of the metadata belong to the apiserver and change with every write.

## Main definitions

* `Object.ReadsMetadata`, `ReadsSpec`, `ReadsStatus`: what is read of the three parts.
* `Json.version?`: the version that a document carries.
* `Metadata.Maintained`: metadata in which at most the fields of the apiserver have changed.
* `Json.Written`: a document after a write.
* `Status.GivesOnce`: a value in which no field of a status is given twice.

## Main results

* `Object.ofJson_object_iff`: an object is read if its three parts are.
* `Object.resourceVersion_of_ofJson`, `version?_encode`: the version is read and written.
* `Object.ofJson_of_written`: what is read after a write.
* `Spec.exists_replaced`, `Status.readsStatus_merged`: what the two patches make of a document.
-/

namespace CustomResource

open Decoder

/-! ### The three parts -/

namespace Object

variable {k : Kind}

/-- The depth of nesting that is left inside of an object. -/
def innerDepth : Nat := 127

theorem descend_startDepth : descend startDepth = .ok innerDepth := rfl

/-- Metadata is read from the only value that is given for it. -/
def ReadsMetadata (values : List Json) (m : Metadata) : Prop :=
  ∃ value, values = [value] ∧ Metadata.decode innerDepth value.toNode = .ok m

/-- A spec is read from the only value that is given for it. -/
def ReadsSpec (values : List Json) (spec : k.Spec) : Prop :=
  ∃ value, values = [value] ∧ Spec.decode k innerDepth value.toNode = .ok spec

/-- A status is read from the only value that is given for it. It may be null or missing. -/
def ReadsStatus (values : List Json) (status : Option Status) : Prop :=
  (values = [] ∧ status = none) ∨
    ∃ value, values = [value] ∧ optional Status.decode innerDepth value.toNode = .ok status

theorem readsStatus_iff {values : List Json} {status : Option Status} :
    ReadsStatus values status ↔ ∃ slot, (record k Status.decode).gather true innerDepth .status
      values none = some slot ∧ slot.join = status := by
  constructor
  · rintro (⟨hvalues, rfl⟩ | ⟨value, hvalues, hread⟩)
    · exact ⟨none, Record.gather_strict_eq_some_iff.mpr (.inl ⟨hvalues, rfl⟩), rfl⟩
    · exact ⟨some status, Record.gather_strict_eq_some_some_iff.mpr ⟨value, hvalues, hread⟩, rfl⟩
  · rintro ⟨slot, hslot, rfl⟩
    obtain ⟨hvalues, rfl⟩ | ⟨value, x, hvalues, hread, rfl⟩ :=
      Record.gather_strict_eq_some_iff.mp hslot
    · exact .inl ⟨hvalues, rfl⟩
    · exact .inr ⟨value, hvalues, hread⟩

/-- The values of the fields of an object, whose status may have been given as null. -/
def slots (o : Object k) (status : Option (Option Status)) :
    Slots (record k Status.decode).Value
  | .metadata => some o.metadata
  | .spec => some o.spec
  | .status => status

/-- **An object is read if its three parts are.** -/
theorem ofJson_object_iff {members : List (String × Json)} {o : Object k} :
    ofJson (decode k) (.object members) = .ok o ↔
      ReadsMetadata (Json.valuesOf "metadata" (.object members)) o.metadata ∧
        ReadsSpec (Json.valuesOf "spec" (.object members)) o.spec ∧
        ReadsStatus (Json.valuesOf "status" (.object members)) o.status := by
  rw [ofJson, decode, Record.strict_object_iff (form k).named, readsStatus_iff]
  constructor
  · rintro ⟨left, slots, hdepth, hbuild, hfields⟩
    obtain rfl := Except.ok.inj (descend_startDepth.symm.trans hdepth)
    obtain ⟨hmetadata, hspec, hstatus⟩ := build_eq_ok hbuild
    have hmetadata' := (hfields .metadata).trans (congrArg some hmetadata)
    have hspec' := (hfields .spec).trans (congrArg some hspec)
    exact ⟨Record.gather_strict_eq_some_some_iff.mp hmetadata',
      Record.gather_strict_eq_some_some_iff.mp hspec', slots .status, hfields .status, hstatus⟩
  · rintro ⟨hmetadata, hspec, slot, hslot, hstatus⟩
    refine ⟨innerDepth, o.slots slot, rfl, ?_, fun f => ?_⟩
    · rw [← show ({ o with status := slot.join } : Object k) = o by rw [hstatus]]
      rfl
    · cases f with
      | metadata => exact Record.gather_strict_eq_some_some_iff.mpr hmetadata
      | spec => exact Record.gather_strict_eq_some_some_iff.mpr hspec
      | status => exact hslot

end Object

/-! ### Versions -/

/-- The version that a document carries in its metadata. -/
def Json.version? (doc : Json) : Option String :=
  match (doc.valuesOf "metadata").getLast?.bind fun m =>
      (m.valuesOf "resourceVersion").getLast? with
  | some (.string version) => some version
  | _ => none

/-- The version is read from the last value that is given for it, if that is a text. -/
theorem Metadata.resourceVersion_of_decode {depth : Nat} {value : Json} {m : Metadata}
    (h : Metadata.decode depth value.toNode = .ok m) :
    m.resourceVersion = match (value.valuesOf "resourceVersion").getLast? with
      | some (.string version) => some version
      | _ => none := by
  obtain ⟨members, rfl⟩ := Record.exists_object_of_lenient h
  rw [Metadata.decode, Record.lenient_object_iff form.named] at h
  obtain ⟨left, slots, -, hbuild, hfields⟩ := h
  obtain rfl := Except.ok.inj hbuild
  have hfield : record.gather false left .resourceVersion
      (Json.valuesOf "resourceVersion" (.object members)) none = some (slots .resourceVersion) :=
    hfields .resourceVersion
  change (slots .resourceVersion).join = _
  cases hlast : (Json.valuesOf "resourceVersion" (.object members)).getLast? with
  | none =>
    have hnone : Json.valuesOf "resourceVersion" (.object members) = [] :=
      List.getLast?_eq_none_iff.mp hlast
    rw [hnone, Record.gather, Option.some.injEq] at hfield
    rw [← hfield]
    rfl
  | some last =>
    obtain ⟨x, hread, hslot⟩ := Record.gather_getLast? hfield hlast
    rw [hslot]
    cases last with
    | null =>
      obtain rfl : none = x := Except.ok.inj hread
      rfl
    | string version =>
      obtain rfl : some version = x := Except.ok.inj hread
      rfl
    | _ => cases hread

/-- A name is read if it is the only value that is given for it. -/
theorem Metadata.name_of_decode {depth : Nat} {value : Json} {m : Metadata}
    (h : Metadata.decode depth value.toNode = .ok m) {name : String}
    (hname : value.valuesOf "name" = [.string name]) : m.name = some name := by
  obtain ⟨members, rfl⟩ := Record.exists_object_of_lenient h
  rw [Metadata.decode, Record.lenient_object_iff form.named] at h
  obtain ⟨left, slots, -, hbuild, hfields⟩ := h
  obtain rfl := Except.ok.inj hbuild
  have hfield : record.gather false left .name
      (Json.valuesOf "name" (.object members)) none = some (slots .name) := hfields .name
  rw [hname] at hfield
  change (slots .name).join = _
  rw [← Option.some.inj hfield]
  rfl

theorem Metadata.valuesOf_encode (m : Metadata) (f : Metadata.Field) :
    m.encode.valuesOf (record.name f) = (form.values m f).toList := by
  rw [form.encode_eq]
  exact Record.valuesOf_written form.named form.nodup_fields (form.values m) f

/-- What is written of metadata is exact, apart from what managers own. -/
theorem Metadata.isExact_of_mem_encode {m : Metadata} {name : String} {value : Json}
    (h : value ∈ m.encode.valuesOf name) (hname : name ≠ "managedFields") :
    value.isExact = true := by
  let plain : Metadata := { m with managedFields := none }
  have hexact : plain.encode.isExact = true := isExact_encode nofun
  rw [form.encode_eq, Json.mem_valuesOf] at h
  rw [form.encode_eq, Json.isExact_object] at hexact
  refine hexact (name, value) ?_
  obtain ⟨f, hf, rfl, hvalue⟩ := Record.mem_written.mp h
  refine Record.mem_written.mpr ⟨f, hf, rfl, ?_⟩
  cases f with
  | managedFields => exact absurd rfl hname
  | _ => exact hvalue

namespace Object

variable {k : Kind}

/-- An object carries the version of the document from which it has been read. -/
theorem resourceVersion_of_ofJson {members : List (String × Json)} {o : Object k}
    (h : ofJson (decode k) (.object members) = .ok o) :
    o.metadata.resourceVersion = (Json.object members).version? := by
  obtain ⟨⟨value, hvalue, hread⟩, -, -⟩ := ofJson_object_iff.mp h
  rw [Metadata.resourceVersion_of_decode hread, Json.version?, hvalue, List.getLast?_singleton]
  rfl

theorem valuesOf_metadata_encode (o : Object k) :
    o.encode.valuesOf "metadata" = [o.metadata.encode] := by
  cases hstatus : o.status <;> simp [encode, hstatus, Json.optional, Json.valuesOf_cons]

theorem valuesOf_spec_encode (o : Object k) :
    o.encode.valuesOf "spec" = [Spec.encode k o.spec] := by
  cases hstatus : o.status <;> simp [encode, hstatus, Json.optional, Json.valuesOf_cons]

/-- An object is written with its version. -/
theorem version?_encode (o : Object k) : o.encode.version? = o.metadata.resourceVersion := by
  have hvalues : o.metadata.encode.valuesOf "resourceVersion" =
      (o.metadata.resourceVersion.map .string).toList :=
    o.metadata.valuesOf_encode .resourceVersion
  rw [Json.version?, valuesOf_metadata_encode, List.getLast?_singleton, Option.bind_some, hvalues]
  cases o.metadata.resourceVersion <;> rfl

end Object

/-! ### Writes -/

namespace Metadata

/-- The fields that the apiserver maintains. -/
def Field.isMaintained : Field → Bool
  | .resourceVersion | .generation | .managedFields => true
  | _ => false

/-- The metadata without what the apiserver maintains. -/
def kept (m : Metadata) : Metadata :=
  { m with resourceVersion := none, generation := none, managedFields := none }

/-- One document of metadata comes from another if at most the fields of the apiserver have been
changed, and it has written them so that they can be read. -/
structure Maintained (before after : Json) : Prop where
  isObject : ∃ members, after = .object members
  kept (f : Field) (hf : f.isMaintained = false) :
    after.valuesOf (record.name f) = before.valuesOf (record.name f)
  readable (f : Field) (hf : f.isMaintained = true) :
    ∀ value ∈ after.valuesOf (record.name f), ∃ x,
      record.read f (Object.innerDepth - 1) value.toNode = .ok x

/-- Of maintained metadata the same is read as before, up to what is maintained. -/
theorem decode_of_maintained {before after : Json} (h : Maintained before after) {m : Metadata}
    (hm : decode Object.innerDepth before.toNode = .ok m) :
    ∃ m', decode Object.innerDepth after.toNode = .ok m' ∧ m'.kept = m.kept := by
  obtain ⟨members, rfl⟩ := Record.exists_object_of_lenient hm
  obtain ⟨members', rfl⟩ := h.isObject
  rw [decode, Record.lenient_object_iff form.named] at hm
  obtain ⟨left, slots, hdepth, hbuild, hfields⟩ := hm
  obtain rfl : left = Object.innerDepth - 1 := (descend_eq_ok.mp hdepth).1 ▸ rfl
  obtain rfl := Except.ok.inj hbuild
  have hfield : ∀ f, ∃ slot, record.gather false (Object.innerDepth - 1) f
      (Json.valuesOf (record.name f) (.object members')) none = some slot ∧
        (f.isMaintained = false → slot = slots f) := by
    intro f
    cases hf : f.isMaintained with
    | false => exact ⟨slots f, h.kept f hf ▸ hfields f, fun _ => rfl⟩
    | true =>
      obtain ⟨slot, hslot⟩ := Record.exists_gather (h.readable f hf) none
      exact ⟨slot, hslot, nofun⟩
  choose slots' hslots' hsame using hfield
  refine ⟨_, (Record.lenient_object_iff form.named).mpr ⟨_, slots', hdepth, rfl, hslots'⟩, ?_⟩
  simp only [kept, hsame .annotations rfl, hsame .creationTimestamp rfl,
    hsame .deletionGracePeriodSeconds rfl, hsame .deletionTimestamp rfl, hsame .finalizers rfl,
    hsame .generateName rfl, hsame .labels rfl, hsame .name rfl, hsame .namespaceName rfl,
    hsame .ownerReferences rfl, hsame .selfLink rfl, hsame .uid rfl]

/-- Cutting off fractions of seconds leaves metadata as it is, up to what is maintained, if nothing
is lost. -/
theorem kept_toSecond {m : Metadata}
    (hcreated : ∀ t ∈ m.creationTimestamp, t.time.nanosecond = 0)
    (hdeleted : ∀ t ∈ m.deletionTimestamp, t.time.nanosecond = 0) : m.toSecond.kept = m.kept := by
  have hcreated' : m.creationTimestamp.map Timestamp.toSecond = m.creationTimestamp :=
    map_eq_self_iff.mpr fun t ht => Timestamp.toSecond_eq_self_iff.mpr (hcreated t ht)
  have hdeleted' : m.deletionTimestamp.map Timestamp.toSecond = m.deletionTimestamp :=
    map_eq_self_iff.mpr fun t ht => Timestamp.toSecond_eq_self_iff.mpr (hdeleted t ht)
  simp only [kept, toSecond, hcreated', hdeleted']

end Metadata

/-- A document has been written with the metadata and the spec of one document, and with the status
of another one. -/
structure Json.Written (content lifecycle doc : Json) : Prop where
  isObject : ∃ members, doc = .object members
  metadata : ∀ value, content.valuesOf "metadata" = [value] →
    ∃ value', doc.valuesOf "metadata" = [value'] ∧ Metadata.Maintained value value'
  spec : doc.valuesOf "spec" = content.valuesOf "spec"
  status : doc.valuesOf "status" = lifecycle.valuesOf "status"

namespace Object

variable {k : Kind}

/-- **What is read after a write**: the spec and the status that have been written, and the metadata
up to what is maintained. -/
theorem ofJson_of_written {content lifecycle doc : Json} (h : Json.Written content lifecycle doc)
    {m : Metadata} (hmetadata : ReadsMetadata (content.valuesOf "metadata") m) {spec : k.Spec}
    (hspec : ReadsSpec (content.valuesOf "spec") spec) {status : Option Status}
    (hstatus : ReadsStatus (lifecycle.valuesOf "status") status) :
    ∃ m', ofJson (decode k) doc = .ok { metadata := m', spec, status } ∧ m'.kept = m.kept := by
  obtain ⟨members, rfl⟩ := h.isObject
  obtain ⟨value, hvalue, hread⟩ := hmetadata
  obtain ⟨value', hvalue', hmaintained⟩ := h.metadata value hvalue
  obtain ⟨m', hread', hkept⟩ := Metadata.decode_of_maintained hmaintained hread
  refine ⟨m', ofJson_object_iff.mpr ⟨⟨value', hvalue', hread'⟩, ?_, ?_⟩, hkept⟩
  · rwa [h.spec]
  · rwa [h.status]

end Object

/-! ### Patches of the spec -/

theorem Json.sortedItems_strings (items : List String) :
    sortedItems (items.map .string) = items.map .string := by
  induction items with
  | nil => rfl
  | cons item items ih => rw [List.map_cons, sortedItems, ih, sorted]

theorem PodSetSpec.sorted_encode (s : PodSetSpec) : s.encode.sorted =
    .object [("current", .int s.current.toInt), ("desired", .int s.desired.toInt),
      ("podList", Json.ofStrings s.podList)] := by
  change Json.object [("current", .int s.current.toInt), ("desired", .int s.desired.toInt),
    ("podList", .array (Json.sortedItems _))] = _
  rw [Json.sortedItems_strings]
  rfl

theorem PodSetSpec.isExact_sorted_encode (s : PodSetSpec) : s.encode.sorted.isExact = true := by
  rw [sorted_encode, Json.isExact_object, List.forall_mem_cons, List.forall_mem_cons,
    List.forall_mem_singleton]
  exact ⟨Json.isExact_int32 s.current, Json.isExact_int32 s.desired,
    Json.isExact_ofStrings s.podList⟩

theorem PodSetSpec.strict_sorted (title : String) (s : PodSetSpec) :
    (record title).strict Object.innerDepth s.encode.sorted.toNode = .ok s := by
  rw [sorted_encode, Record.strict_object_iff (form title).named]
  refine ⟨Object.innerDepth - 1, (form title).slots s, rfl, rfl, fun f => ?_⟩
  cases f with
  | desired =>
    exact Record.gather_strict_eq_some_some_iff.mpr ⟨_, rfl, int32_toNode _ s.desired⟩
  | current =>
    exact Record.gather_strict_eq_some_some_iff.mpr ⟨_, rfl, int32_toNode _ s.current⟩
  | podList =>
    exact Record.gather_strict_eq_some_some_iff.mpr ⟨_, rfl, strings_ofStrings rfl s.podList⟩

/-- A spec is read from the form in which it is sent in a patch. -/
theorem Spec.decode_sorted : (k : Kind) → (spec : k.Spec) →
    Spec.decode k Object.innerDepth (Spec.encode k spec).sorted.toNode = .ok spec
  | .example, _ => rfl
  | .test, _ => rfl
  | .jinghzhu, s => s.strict_sorted _

/-- A spec can be sent in that form. -/
theorem Spec.isExact_sorted_encode : (k : Kind) → (spec : k.Spec) →
    (Spec.encode k spec).sorted.isExact = true
  | .example, _ => rfl
  | .test, _ => rfl
  | .jinghzhu, s => s.isExact_sorted_encode

/-- A spec is also read from the form in which it is written in an object. -/
theorem Spec.decode_encode (k : Kind) (spec : k.Spec) :
    Spec.decode k Object.innerDepth (Spec.encode k spec).toNode = .ok spec :=
  (Spec.stable_decode (by decide) k).read (Spec.decode_sorted k spec)

/-- The place that the patch of the spec names. -/
theorem Spec.pointer?_patchOps : Json.pointer? "/spec" = some ["spec"] := rfl

/-- **What the patch of the spec makes of a document** that has a spec: only the spec changes. -/
theorem Spec.exists_replaced {k : Kind} (spec : k.Spec) {members : List (String × Json)}
    {old : k.Spec} (hold : Object.ReadsSpec (Json.valuesOf "spec" (.object members)) old) :
    ∃ doc, Json.replaceAt? "/spec" (Spec.encode k spec).sorted (.object members) = some doc ∧
      Object.ReadsSpec (doc.valuesOf "spec") spec ∧
      ∀ name, name ≠ "spec" → doc.valuesOf name = Json.valuesOf name (.object members) := by
  obtain ⟨value, hvalue, -⟩ := hold
  have hsome : Json.valuesOf "spec" (.object members) ≠ [] := hvalue ▸ List.cons_ne_nil _ _
  obtain ⟨doc, hdoc⟩ := Json.exists_replaceAt? pointer?_patchOps (Spec.encode k spec).sorted hsome
  obtain ⟨hself, hothers⟩ := Json.valuesOf_replaceAt? pointer?_patchOps hdoc
  rw [hvalue, List.tail_cons] at hself
  exact ⟨doc, hdoc, ⟨_, hself, Spec.decode_sorted k spec⟩, hothers⟩

/-! ### Patches of the status -/

namespace Status

theorem patchBody_eq (s : Status) : s.patchBody =
    .object [("status", .object [("message", .string s.message), ("state", s.state.encode)])] := rfl

/-- The members of a status after the patch, from those before it. -/
theorem merge_members (s : Status) (before : Json) :
    (Json.object [("message", .string s.message), ("state", s.state.encode)]).merge before =
      .object (Json.setMember "state" s.state.encode
        (Json.setMember "message" (.string s.message) (Json.membersOf before))) := rfl

/-- No field of a status is given twice in a value. A value that is no object gives none. -/
def GivesOnce (before : Json) : Prop :=
  ∀ f, (Json.valuesOf ((record State.decode).name f) (.object (Json.membersOf before))).tail = []

/-- No field of a status that can be read is given twice. -/
theorem givesOnce_of_decode {before : Json} {old : Option Status}
    (hold : optional Status.decode Object.innerDepth before.toNode = .ok old) :
    GivesOnce before := by
  intro f
  cases before with
  | object members =>
    obtain ⟨hnull, -⟩ | ⟨old, -, hread, -⟩ := optional_eq_ok hold
    · exact nomatch hnull
    · obtain ⟨left, slots, -, -, hfields⟩ := (Record.strict_object_iff form.named).mp hread
      exact Record.tail_eq_nil_of_gather (hfields f)
  | _ => rfl

/-- A status is read from the document into which its patch has been merged, if no field has been
given twice before. What else stands in the status stays there. -/
theorem decode_merged (s : Status) {before : Json} (hbefore : GivesOnce before) :
    Status.decode Object.innerDepth
      ((Json.object [("message", .string s.message), ("state", s.state.encode)]).merge
        before).toNode = .ok s := by
  have hstate : (Json.valuesOf "state" (.object (Json.membersOf before))).tail = [] :=
    hbefore .state
  have hmessage : (Json.valuesOf "message" (.object (Json.membersOf before))).tail = [] :=
    hbefore .message
  have hstate' : Json.valuesOf "state" (.object (Json.setMember "state" s.state.encode
      (Json.setMember "message" (.string s.message) (Json.membersOf before)))) =
        [s.state.encode] := by
    rw [Json.valuesOf_setMember_self, Json.valuesOf_setMember_of_ne (by decide), hstate]
  have hmessage' : Json.valuesOf "message" (.object (Json.setMember "state" s.state.encode
      (Json.setMember "message" (.string s.message) (Json.membersOf before)))) =
        [.string s.message] := by
    rw [Json.valuesOf_setMember_of_ne (by decide), Json.valuesOf_setMember_self, hmessage]
  have hread := State.decode_encode (Object.innerDepth - 1) s.state
  rw [merge_members, Status.decode, Record.strict_object_iff form.named]
  refine ⟨Object.innerDepth - 1, form.slots s, rfl, rfl, fun f => ?_⟩
  cases f with
  | state => exact Record.gather_strict_eq_some_some_iff.mpr ⟨_, hstate', hread⟩
  | message => exact Record.gather_strict_eq_some_some_iff.mpr ⟨_, hmessage', rfl⟩

/-- The members of a document after the patch of the status. -/
theorem merge_patchBody (s : Status) (members : List (String × Json)) :
    s.patchBody.merge (.object members) = .object (Json.setMember "status"
      ((Json.object [("message", .string s.message), ("state", s.state.encode)]).merge
        ((members.lookup "status").getD .null)) members) := by
  rw [patchBody_eq, Json.merge_object_singleton _ (by simp), Json.membersOf]

/-- **What the patch of the status makes of a document** with one status or none, whatever that is:
only the status changes. -/
theorem readsStatus_merged_of_givesOnce (s : Status) {members : List (String × Json)}
    (hvalues : (Json.valuesOf "status" (.object members)).tail = [])
    (hbefore : GivesOnce ((members.lookup "status").getD .null)) :
    ∃ changed, s.patchBody.merge (.object members) = .object changed ∧
      Object.ReadsStatus (Json.valuesOf "status" (.object changed)) (some s) := by
  rw [merge_patchBody]
  have hread := optional_eq_some (by simp [merge_members]) (s.decode_merged hbefore)
  refine ⟨_, rfl, .inr ⟨_, ?_, hread⟩⟩
  rw [Json.valuesOf_setMember_self, hvalues]

/-- A document from which a status can be read has one status or none. -/
theorem readsStatus_merged (s : Status) {members : List (String × Json)} {old : Option Status}
    (hold : Object.ReadsStatus (Json.valuesOf "status" (.object members)) old) :
    ∃ changed, s.patchBody.merge (.object members) = .object changed ∧
      Object.ReadsStatus (Json.valuesOf "status" (.object changed)) (some s) := by
  obtain ⟨hvalues, -⟩ | ⟨before, hvalues, hread⟩ := hold
  · have hnull : optional Status.decode Object.innerDepth Json.null.toNode = .ok none := rfl
    refine s.readsStatus_merged_of_givesOnce (by rw [hvalues]; rfl) ?_
    rw [Json.lookup_eq_head?_valuesOf, hvalues]
    exact givesOnce_of_decode hnull
  · refine s.readsStatus_merged_of_givesOnce (by rw [hvalues]; rfl) ?_
    rw [Json.lookup_eq_head?_valuesOf, hvalues]
    exact givesOnce_of_decode hread

end Status

end CustomResource
