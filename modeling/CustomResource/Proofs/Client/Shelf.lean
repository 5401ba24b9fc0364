import CustomResource.Proofs.Api.Refusals
import CustomResource.Proofs.Client.Sequence
import CustomResource.Proofs.Resource.Documents
import CustomResource.Proofs.Text.Digits

/-!
# A server with a single instance

A small apiserver that keeps one instance, to show that what is assumed of apiservers elsewhere can
be had. It counts its writes, and the count is the version. It knows no generations and no managed
fields, and drops what a client sends of them. It is strict with replacements, which have to carry
the stored version.

## Main definitions

* `Shelf`: the instance as it is stored, with its document.
* `Shelf.perform`: how the server answers.

## Main results

* `Shelf.shows_answer`: its answers show the document.
* `Shelf.written_of_write?`: what a write makes of the document.
* `Shelf.exists_write?_encode`, `exists_write?_of_metadata`: what can be written.
* `Shelf.perform_cases`: what an action makes of the count.
-/

namespace CustomResource

theorem Text.ofNat_injective {a b : Nat} (h : ofNat a = ofNat b) : a = b := by
  rw [← decimalValue_digitsOf a, String.ofList_injective h, decimalValue_digitsOf]

namespace Json

theorem valuesOf_map_self (key : String) (values : List Json) :
    valuesOf key (.object (values.map fun value => (key, value))) = values := by
  induction values with
  | nil => rfl
  | cons value values ih => rw [List.map_cons, valuesOf_cons_self, ih]

theorem valuesOf_map_of_ne {key name : String} (h : name ≠ key) (values : List Json) :
    valuesOf key (.object (values.map fun value => (name, value))) = [] := by
  induction values with
  | nil => rfl
  | cons value values ih => rw [List.map_cons, valuesOf_cons_of_ne h, ih]

theorem isExact_of_mem_valuesOf {key : String} {doc value : Json} (hdoc : doc.isExact = true)
    (h : value ∈ doc.valuesOf key) : value.isExact = true := by
  cases doc with
  | object members => exact isExact_object.mp hdoc (key, value) (mem_valuesOf.mp h)
  | _ => exact nomatch h

theorem isExact_getD_lookup {members : List (String × Json)}
    (h : ∀ m ∈ members, m.2.isExact = true) (key : String) :
    ((members.lookup key).getD .null).isExact = true := by
  cases hvalue : members.lookup key with
  | none => rfl
  | some value =>
    rw [lookup_eq_head?_valuesOf] at hvalue
    exact h (key, value) (mem_valuesOf.mp (List.mem_of_head? hvalue))

theorem isExact_of_mem_membersOf {doc : Json} (h : doc.isExact = true) :
    ∀ m ∈ membersOf doc, m.2.isExact = true := by
  cases doc with
  | object members => exact isExact_object.mp h
  | _ => exact nofun

mutual

/-- What an exact document makes of an exact document is exact. -/
theorem isExact_merge : (change doc : Json) → change.isExact = true → doc.isExact = true →
    (change.merge doc).isExact = true
  | .object changes, doc, hchange, hdoc => by
    rw [merge, isExact_object]
    exact isExact_mergeMembers changes _ (isExact_object.mp hchange) (isExact_of_mem_membersOf hdoc)
  | .null, _, h, _ | .bool _, _, h, _ | .number _, _, h, _ | .string _, _, h, _
  | .array _, _, h, _ => h

theorem isExact_mergeMembers : (changes members : List (String × Json)) →
    (∀ m ∈ changes, m.2.isExact = true) → (∀ m ∈ members, m.2.isExact = true) →
    ∀ m ∈ mergeMembers changes members, m.2.isExact = true
  | [], _, _, hmembers => hmembers
  | (key, change) :: changes, members, hchanges, hmembers => by
    obtain ⟨hfirst, hrest⟩ := List.forall_mem_cons.mp hchanges
    by_cases hnull : change = .null
    · subst hnull
      rw [mergeMembers]
      exact isExact_mergeMembers changes _ hrest fun m hm => hmembers m (List.mem_of_mem_filter hm)
    · rw [mergeMembers]
      · refine isExact_mergeMembers changes _ hrest fun m hm => ?_
        obtain rfl | hm := mem_setMember hm
        · exact isExact_merge change _ hfirst (isExact_getD_lookup hmembers key)
        · exact hmembers m hm
      · exact hnull

end

end Json

namespace Shelf

/-! ### The document -/

/-- Whether a member of the metadata is written by the server itself. -/
def isOwn (name : String) : Bool :=
  name ∈ ["name", "resourceVersion", "generation", "managedFields"]

/-- The metadata as it is stored. -/
def metadataOf (name : String) (writes : Nat) (metadata : List (String × Json)) : Json :=
  .object ((metadata.filter fun m => !isOwn m.1) ++
    [("name", .string name), ("resourceVersion", .string (Text.ofNat writes))])

/-- The instance as it is stored. -/
def documentOf (name : String) (writes : Nat) (metadata : List (String × Json))
    (spec status : List Json) : Json :=
  .object (("metadata", metadataOf name writes metadata) ::
    (spec.map (fun value => ("spec", value)) ++ status.map fun value => ("status", value)))

end Shelf

/-- What a server stores of an instance of a name: how often it has been written, its metadata, and
the values of its spec and of its status, of which there may be none. What is stored can be sent. -/
structure Shelf (name : String) where
  writes : Nat
  metadata : List (String × Json)
  spec : List Json
  status : List Json
  isExact : (Shelf.documentOf name writes metadata spec status).isExact = true

namespace Shelf

variable {name : String}

/-- The document of the stored instance. -/
def document (s : Shelf name) : Json := documentOf name s.writes s.metadata s.spec s.status

/-- The values in the stored metadata: those that the server writes itself, and for the other names
those that have been given. -/
theorem valuesOf_metadataOf (key : String) (writes : Nat) (metadata : List (String × Json)) :
    (metadataOf name writes metadata).valuesOf key =
      (if isOwn key then [] else Json.valuesOf key (.object metadata)) ++
        Json.valuesOf key (.object
          [("name", .string name), ("resourceVersion", .string (Text.ofNat writes))]) := by
  rw [metadataOf, Json.valuesOf_append, Json.valuesOf_filter fun key => !isOwn key]
  cases isOwn key <;> rfl

theorem valuesOf_metadata (s : Shelf name) :
    s.document.valuesOf "metadata" = [metadataOf name s.writes s.metadata] := by
  rw [document, documentOf, Json.valuesOf_cons_self, Json.valuesOf_append,
    Json.valuesOf_map_of_ne (by decide), Json.valuesOf_map_of_ne (by decide)]
  rfl

theorem valuesOf_spec (s : Shelf name) : s.document.valuesOf "spec" = s.spec := by
  rw [document, documentOf, Json.valuesOf_cons_of_ne (by decide), Json.valuesOf_append,
    Json.valuesOf_map_self, Json.valuesOf_map_of_ne (by decide), List.append_nil]

theorem valuesOf_status (s : Shelf name) : s.document.valuesOf "status" = s.status := by
  rw [document, documentOf, Json.valuesOf_cons_of_ne (by decide), Json.valuesOf_append,
    Json.valuesOf_map_self, Json.valuesOf_map_of_ne (by decide), List.nil_append]

/-- The versions that have been given until now: the numbers of the writes, in digits. -/
def versions (s : Shelf name) : Set String := {version | ∃ i ≤ s.writes, version = Text.ofNat i}

theorem version?_document (s : Shelf name) :
    s.document.version? = some (Text.ofNat s.writes) := by
  have hversion : (metadataOf name s.writes s.metadata).valuesOf "resourceVersion" =
      [.string (Text.ofNat s.writes)] := valuesOf_metadataOf "resourceVersion" _ _
  rw [Json.version?, valuesOf_metadata, List.getLast?_singleton, Option.bind_some, hversion]
  rfl

/-! ### Writes -/

/-- Writes the metadata and the spec of one document, and the status of another one. None if that
cannot be sent again. -/
def write? (s : Shelf name) (content lifecycle : Json) : Option (Shelf name) :=
  match content.valuesOf "metadata" with
  | [.object metadata] =>
    if h : (documentOf name (s.writes + 1) metadata (content.valuesOf "spec")
        (lifecycle.valuesOf "status")).isExact = true then
      some ⟨s.writes + 1, metadata, content.valuesOf "spec", lifecycle.valuesOf "status", h⟩
    else none
  | _ => none

theorem isExact_documentOf {writes : Nat} {metadata : List (String × Json)}
    {spec status : List Json} :
    (documentOf name writes metadata spec status).isExact = true ↔
      (∀ m ∈ metadata, isOwn m.1 = false → m.2.isExact = true) ∧
        (∀ value ∈ spec, value.isExact = true) ∧ ∀ value ∈ status, value.isExact = true := by
  have hmetadata : (metadataOf name writes metadata).isExact = true ↔
      ∀ m ∈ metadata, isOwn m.1 = false → m.2.isExact = true := by
    rw [metadataOf, Json.isExact_object, List.forall_mem_append]
    have hown : ∀ m ∈ [("name", Json.string name),
        ("resourceVersion", .string (Text.ofNat writes))], m.2.isExact = true := by
      simp [Json.isExact, Json.all]
    simp only [List.mem_filter, Bool.not_eq_true', and_imp, and_iff_left hown]
  rw [documentOf, Json.isExact_object, List.forall_mem_cons, List.forall_mem_append, hmetadata,
    List.forall_mem_map, List.forall_mem_map]

/-- What is stored of metadata comes from it, if it carries the name. -/
theorem maintained_metadataOf (writes : Nat) {metadata : List (String × Json)}
    (hname : Json.valuesOf "name" (.object metadata) = [.string name]) :
    Metadata.Maintained (.object metadata) (metadataOf name writes metadata) where
  isObject := ⟨_, rfl⟩
  kept f hf := by
    cases f with
    | name => exact (valuesOf_metadataOf "name" writes metadata).trans hname.symm
    | resourceVersion | generation | managedFields => exact nomatch hf
    | _ => exact (valuesOf_metadataOf _ writes metadata).trans (List.append_nil _)
  readable f hf value hvalue := by
    cases f with
    | resourceVersion =>
      have hvalues : (metadataOf name writes metadata).valuesOf "resourceVersion" =
          [.string (Text.ofNat writes)] := valuesOf_metadataOf "resourceVersion" writes metadata
      obtain rfl := List.mem_singleton.mp (hvalues ▸ hvalue)
      exact ⟨_, rfl⟩
    | generation => exact nomatch (valuesOf_metadataOf "generation" writes metadata ▸ hvalue)
    | managedFields =>
      exact nomatch (valuesOf_metadataOf "managedFields" writes metadata ▸ hvalue)
    | _ => exact nomatch hf

/-- **What a write makes of the document**, if the metadata that is written carries the name. -/
theorem written_of_write? {s s' : Shelf name} {content lifecycle : Json}
    (h : s.write? content lifecycle = some s')
    (hname : ∀ value, content.valuesOf "metadata" = [value] →
      value.valuesOf "name" = [.string name]) :
    Json.Written content lifecycle s'.document := by
  rw [write?] at h
  split at h
  · next metadata hmetadata =>
    split_ifs at h with hexact
    obtain rfl := Option.some.inj h
    refine ⟨⟨_, rfl⟩, fun value hvalue => ⟨_, valuesOf_metadata _, ?_⟩, valuesOf_spec _,
      valuesOf_status _⟩
    obtain rfl : Json.object metadata = value := by simpa [hmetadata] using hvalue
    exact maintained_metadataOf _ (hname _ hmetadata)
  · exact nomatch h

/-- Every write is counted. -/
theorem writes_of_write? {s s' : Shelf name} {content lifecycle : Json}
    (h : s.write? content lifecycle = some s') : s'.writes = s.writes + 1 := by
  rw [write?] at h
  split at h
  · split_ifs at h
    obtain rfl := Option.some.inj h
    rfl
  · exact nomatch h

/-- What is exact can be written. -/
theorem exists_write? (s : Shelf name) {content lifecycle : Json}
    {metadata : List (String × Json)} (hcontent : content.valuesOf "metadata" = [.object metadata])
    (hmetadata : ∀ m ∈ metadata, isOwn m.1 = false → m.2.isExact = true)
    (hspec : ∀ value ∈ content.valuesOf "spec", value.isExact = true)
    (hstatus : ∀ value ∈ lifecycle.valuesOf "status", value.isExact = true) :
    ∃ s', s.write? content lifecycle = some s' := by
  rw [write?, hcontent]
  exact ⟨_, dif_pos (isExact_documentOf.mpr ⟨hmetadata, hspec, hstatus⟩)⟩

/-! ### Answers -/

/-- The answer that shows the stored instance. -/
def answer (s : Shelf name) : Answer := .response 200 s.document.render.toUTF8

/-- The end of a request to write: what has been written is shown, and what cannot be written is
refused. -/
def settle (s : Shelf name) : Option (Shelf name) → Option Answer × Shelf name
  | some s' => (some s'.answer, s')
  | none => (some (.response 422 .empty), s)

/-- The place and the value of a patch that consists of one replacement. -/
def replacement? : Json → Option (String × Json)
  | .array [op] =>
    match op.get? "op", op.get? "path", op.get? "value" with
    | some (.string "replace"), some (.string path), some value => some (path, value)
    | _, _, _ => none
  | _ => none

/-- How the server answers a request. -/
def respond (s : Shelf name) (r : Request) : Option Answer × Shelf name :=
  match r.method, r.body with
  | .get, _ => (some s.answer, s)
  | .put, some (_, body) =>
    if body.version? = s.document.version? then s.settle (s.write? body s.document)
    else (some (.response 409 .empty), s)
  | .patch, some (.jsonPatch, ops) =>
    s.settle <| (replacement? ops).bind fun change =>
      (Json.replaceAt? change.1 change.2 s.document).bind fun changed =>
        s.write? changed s.document
  | .patch, some (.mergePatch, change) =>
    s.settle (s.write? s.document (change.merge s.document))
  | _, _ => (some (.response 405 .empty), s)

/-- The world in which the server is. -/
def perform : Meaning (Shelf name)
  | .log _ _, s => ((), s)
  | .now, s => (.ofMillis 0, s)
  | .sleepUntil _, s => ((), s)
  | .connect _, s => ((), s)
  | .send r _, s => s.respond r
  | .startController _, s => ((), s)
  | .cancelController, s => ((), s)
  | .joinController, s => (true, s)
  | .countCached, s => ((0 : Nat), s)

/-! What an action does to the server: nothing, or it is a write and is counted. -/

theorem settle_cases (s : Shelf name) {content lifecycle : Json} :
    (s.settle (s.write? content lifecycle)).2 = s ∨
      (s.settle (s.write? content lifecycle)).2.writes = s.writes + 1 := by
  cases hwrite : s.write? content lifecycle with
  | none => exact .inl rfl
  | some s' => exact .inr (writes_of_write? hwrite)

theorem respond_cases (s : Shelf name) (r : Request) :
    (s.respond r).2 = s ∨ (s.respond r).2.writes = s.writes + 1 := by
  rw [respond]
  split
  · exact .inl rfl
  · split_ifs
    · exact s.settle_cases
    · exact .inl rfl
  · next ops _ _ =>
    cases hchange : replacement? ops with
    | none => exact .inl rfl
    | some change =>
      cases hchanged : Json.replaceAt? change.1 change.2 s.document with
      | none =>
        rw [Option.bind_some, hchanged]
        exact .inl rfl
      | some changed =>
        rw [Option.bind_some, hchanged]
        exact s.settle_cases
  · exact s.settle_cases
  · exact .inl rfl

theorem perform_cases (s : Shelf name) (action : Action) :
    (perform action s).2 = s ∨ (perform action s).2.writes = s.writes + 1 := by
  cases action with
  | send r _ => exact s.respond_cases r
  | _ => exact .inl rfl

/-- **The answers of the server show the document.** -/
theorem shows_answer (k : Kind) (s : Shelf name) :
    Instances.Shows k (some s.answer) s.document := by
  intro o
  have htext : s.answer.text = .ok s.document.render := by
    rw [answer, Answer.text, Text.decodeUtf8_toUTF8]
    rfl
  have hdecode : Decoder.ofText (Object.decode k) s.document.render =
      Decoder.ofJson (Object.decode k) s.document := Decoder.ofText_render s.isExact
  rw [Task.understood, Answer.decode, htext]
  dsimp only
  rw [hdecode]
  cases Decoder.ofJson (Object.decode k) s.document <;> simp [Except.mapError]

/-! ### What can be written -/

variable {k : Kind}

theorem isExact_of_mem (s : Shelf name) {key : String} {value : Json}
    (h : value ∈ s.document.valuesOf key) : value.isExact = true :=
  Json.isExact_of_mem_valuesOf s.isExact h

/-- What a client writes of an object can be stored. -/
theorem exists_write?_encode (s : Shelf name) (o : Object k) :
    ∃ s', s.write? o.encode s.document = some s' := by
  have hencode : o.encode.valuesOf "metadata" = [.object (Metadata.record.written
      (Metadata.form.values o.metadata))] := by
    rw [Object.valuesOf_metadata_encode, Metadata.form.encode_eq]
    rfl
  refine s.exists_write? hencode (fun m hm hown => ?_) (fun value hvalue => ?_) fun value =>
    s.isExact_of_mem
  · have hvalue : m.2 ∈ o.metadata.encode.valuesOf m.1 := by
      rw [Metadata.form.encode_eq]
      exact Json.mem_valuesOf.mpr hm
    refine Metadata.isExact_of_mem_encode hvalue fun hname => ?_
    rw [hname] at hown
    exact nomatch hown
  · rw [Object.valuesOf_spec_encode] at hvalue
    obtain rfl := List.mem_singleton.mp hvalue
    exact Spec.isExact_encode k o.spec

/-- What the server has stored, with another spec or another status, can be stored. -/
theorem exists_write?_of_metadata (s : Shelf name) {content lifecycle : Json}
    (hcontent : content.valuesOf "metadata" = s.document.valuesOf "metadata")
    (hspec : ∀ value ∈ content.valuesOf "spec", value.isExact = true)
    (hstatus : ∀ value ∈ lifecycle.valuesOf "status", value.isExact = true) :
    ∃ s', s.write? content lifecycle = some s' := by
  rw [valuesOf_metadata] at hcontent
  refine s.exists_write? hcontent (fun m hm _ => ?_) hspec hstatus
  have hstored : metadataOf name s.writes s.metadata ∈ s.document.valuesOf "metadata" :=
    s.valuesOf_metadata ▸ List.mem_singleton_self _
  exact Json.isExact_object.mp (s.isExact_of_mem hstored) m hm

/-- The stored metadata carries the name. -/
theorem name_of_metadata (s : Shelf name) {content : Json}
    (hcontent : content.valuesOf "metadata" = s.document.valuesOf "metadata") :
    ∀ value, content.valuesOf "metadata" = [value] → value.valuesOf "name" = [.string name] := by
  intro value hvalue
  rw [hcontent, valuesOf_metadata] at hvalue
  obtain rfl := List.singleton_injective hvalue
  exact valuesOf_metadataOf "name" s.writes s.metadata

/-- What is read of the document carries the name. -/
theorem name_of_ofJson (s : Shelf name) {o : Object k}
    (h : Decoder.ofJson (Object.decode k) s.document = .ok o) : o.metadata.name = some name := by
  obtain ⟨⟨value, hvalue, hread⟩, -, -⟩ := Object.ofJson_object_iff.mp h
  exact Metadata.name_of_decode hread (s.name_of_metadata rfl value hvalue)

/-- What the server answers when something has been written. -/
theorem settled (k : Kind) {s : Shelf name} {content lifecycle : Json}
    (hwrite : ∃ s', s.write? content lifecycle = some s')
    (hname : ∀ value, content.valuesOf "metadata" = [value] →
      value.valuesOf "name" = [.string name]) :
    Instances.Shows k (s.settle (s.write? content lifecycle)).1
        (s.settle (s.write? content lifecycle)).2.document ∧
      Json.Written content lifecycle (s.settle (s.write? content lifecycle)).2.document := by
  obtain ⟨s', hs'⟩ := hwrite
  rw [hs']
  exact ⟨s'.shows_answer k, written_of_write? hs' hname⟩

/-! ### A sample -/

/-- A sample that has been created half a second after noon, in a state that no one knows. -/
def afternoon : Shelf "x" where
  writes := 6
  metadata := [("creationTimestamp", .string "2024-03-01T12:00:00.500Z")]
  spec := [.object [("foo", .string "hello"), ("bar", .bool true)]]
  status := [.object [("state", .string "Odd")]]
  isExact := rfl

theorem exists_of_afternoon : ∃ o : Object .test,
    Decoder.ofJson (Object.decode .test) afternoon.document = .ok o ∧
    ∃ t ∈ o.metadata.creationTimestamp, t.time.nanosecond = 500000000 := by
  have hcheck : (Decoder.ofJson (Object.decode .test) afternoon.document).toOption.any (fun o =>
      o.metadata.creationTimestamp.any fun t => t.time.nanosecond = 500000000) = true := by
    decide +kernel
  obtain ⟨o, hread, hcheck⟩ := Decoder.exists_of_any hcheck
  exact ⟨o, hread, by simpa [Option.any_eq_true] using hcheck⟩

end Shelf

namespace Instances

/-- The samples in a namespace. -/
def samples : Instances .test := ⟨"crd"⟩

theorem reaches_samples : samples.Reaches "x" where
  scope_segment := rfl
  name_segment := rfl
  size := by decide

end Instances

end CustomResource
