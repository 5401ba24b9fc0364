import CustomResource.Proofs.Resource.Documents

/-!
# Patches that stay apart

The spec of an instance is patched by its users and its status by the controller, and neither waits
for the other. That is safe since each patch touches a member of its own: the two come to the same
in either order, and a patch that comes twice does nothing more. The patch of the status is merged
into what is there, so it writes all of a status, and leaves what else stands beside it.

A document is taken as a client has it, in which every patch is a change in place. Nothing is
assumed of what its spec, its status and its other members hold.

## Main definitions

* `Json.replaceAll?`: what a list of replacements makes of a document.
* `Json.SameExcept`: two documents that differ at most in the members of one name.
* `Instances.PatchesApart`: how a patch of the spec and one of the status go together.

## Main results

* `Spec.replaceAll?_patchOps`: the patch of the spec as a change of members.
* `Status.merge_merge`: of two patches of the status the later one counts.
* `Instances.patches_apart`: the two patches stay apart in every document that has a spec.
-/

namespace CustomResource

namespace Json

/-- What a list of replacements makes of a document, one after the other. None where a place does
not exist, and for operations that are no replacements. -/
def replaceAll? : List PatchOp → Json → Option Json
  | [], doc => some doc
  | .replace path value :: ops, doc => (replaceAt? path value doc).bind (replaceAll? ops)
  | _ :: _, _ => none

/-- Two documents have the same members, but for those of one name. -/
def SameExcept (key : String) (before after : Json) : Prop :=
  ∀ name, name ≠ key → after.valuesOf name = before.valuesOf name

end Json

/-! ### The patch of the spec -/

namespace Spec

variable {k : Kind} {members : List (String × Json)}

/-- The change that the patch of the spec is. -/
def replaceIn? (spec : k.Spec) (members : List (String × Json)) :
    Option (List (String × Json)) :=
  Json.updateMember? "spec" (Json.replaceSteps? (Spec.encode k spec).sorted []) members

theorem replaceAll?_patchOps (spec : k.Spec) (members : List (String × Json)) :
    Json.replaceAll? (patchOps k spec) (.object members) =
      (replaceIn? spec members).map .object := by
  rw [patchOps, Json.replaceAll?, Json.replaceAt?_object pointer?_patchOps, replaceIn?]
  exact Option.bind_fun_some _

/-- The spec can be replaced if there is one. -/
theorem exists_replaceIn? (spec : k.Spec) {old : Json} (h : members.lookup "spec" = some old) :
    ∃ replaced, replaceIn? spec members = some replaced := by
  refine Json.exists_updateMember? _ fun hnone => ?_
  rw [Json.lookup_eq_head?_valuesOf, hnone] at h
  exact nomatch h

theorem replaceIn?_of_replaceIn? {spec : k.Spec} {replaced : List (String × Json)}
    (h : replaceIn? spec members = some replaced) : replaceIn? spec replaced = some replaced :=
  Json.updateMember?_of_updateMember? h

theorem sameExcept_of_replaceIn? {spec : k.Spec} {replaced : List (String × Json)}
    (h : replaceIn? spec members = some replaced) :
    Json.SameExcept "spec" (.object members) (.object replaced) :=
  (Json.valuesOf_updateMember? h).2

/-- The new spec is read, if there has been only one before. -/
theorem readsSpec_of_replaceIn? {spec : k.Spec} {replaced : List (String × Json)}
    (h : replaceIn? spec members = some replaced)
    (hvalues : (Json.valuesOf "spec" (.object members)).tail = []) :
    Object.ReadsSpec (Json.valuesOf "spec" (.object replaced)) spec := by
  have hself := (Json.valuesOf_updateMember? h).1
  rw [hvalues] at hself
  exact ⟨_, hself, decode_sorted k spec⟩

end Spec

/-! ### The patch of the status -/

namespace Status

/-- What the patch of the status makes of the status that stands in a document. -/
def mergeInto (s : Status) (before : Json) : Json :=
  (Json.object [("message", .string s.message), ("state", s.state.encode)]).merge before

/-- What the patch of the status makes of the members of a document. -/
def mergeIn (s : Status) (members : List (String × Json)) : List (String × Json) :=
  Json.setMember "status" (s.mergeInto ((members.lookup "status").getD .null)) members

theorem merge_patchBody_eq (s : Status) (members : List (String × Json)) :
    s.patchBody.merge (.object members) = .object (s.mergeIn members) :=
  s.merge_patchBody members

/-- Of two statuses that are merged one after the other the later one counts. -/
theorem mergeInto_mergeInto (s s' : Status) (before : Json) :
    s'.mergeInto (s.mergeInto before) = s'.mergeInto before := by
  simp only [mergeInto, merge_members, Json.membersOf]
  rw [Json.setMember_setMember_of_ne (by decide), Json.setMember_setMember_of_ne (by decide)]

theorem mergeIn_mergeIn (s s' : Status) (members : List (String × Json)) :
    s'.mergeIn (s.mergeIn members) = s'.mergeIn members := by
  simp only [mergeIn, Json.lookup_setMember_self, Option.getD_some, mergeInto_mergeInto,
    Json.setMember_setMember_self]

/-- **Of two patches of the status the later one counts.** -/
theorem merge_merge (s s' : Status) (members : List (String × Json)) :
    s'.patchBody.merge (s.patchBody.merge (.object members)) =
      s'.patchBody.merge (.object members) := by
  simp only [merge_patchBody_eq, mergeIn_mergeIn]

theorem sameExcept_mergeIn (s : Status) (members : List (String × Json)) :
    Json.SameExcept "status" (.object members) (.object (s.mergeIn members)) :=
  fun _ hname => Json.valuesOf_setMember_of_ne hname.symm _ _

/-- What else stands in a status stays there. -/
theorem exists_foreign_kept (s : Status) {members before : List (String × Json)}
    (h : members.lookup "status" = some (.object before)) :
    ∃ after, (Json.object (s.mergeIn members)).get? "status" = some (.object after) ∧
      ∀ name, name ≠ "state" → name ≠ "message" →
        Json.valuesOf name (.object after) = Json.valuesOf name (.object before) := by
  have hmerged : (Json.object (s.mergeIn members)).get? "status" =
      some ((Json.object [("message", .string s.message), ("state", s.state.encode)]).merge
        (.object before)) := by
    rw [Json.get?, mergeIn, Json.lookup_setMember_self, h, Option.getD_some, mergeInto]
  refine ⟨_, hmerged.trans (congrArg some (merge_members s _)), fun name hstate hmessage => ?_⟩
  rw [Json.valuesOf_setMember_of_ne hstate.symm, Json.valuesOf_setMember_of_ne hmessage.symm,
    Json.membersOf]

/-- In a value without repeated keys no field of a status is given twice. -/
theorem givesOnce_of_hasDistinctKeys {before : Json} (h : before.hasDistinctKeys = true) :
    GivesOnce before := by
  intro f
  cases before with
  | object members =>
    exact Json.tail_valuesOf_of_nodup (Json.hasDistinctKeys_object.mp h).1 _
  | _ => rfl

/-- The new status is read from a document without repeated keys, whatever its status was. -/
theorem readsStatus_mergeIn (s : Status) {members : List (String × Json)}
    (h : (Json.object members).hasDistinctKeys = true) :
    Object.ReadsStatus (Json.valuesOf "status" (.object (s.mergeIn members))) (some s) := by
  obtain ⟨hnodup, hparts⟩ := Json.hasDistinctKeys_object.mp h
  have hbefore : GivesOnce ((members.lookup "status").getD .null) := by
    cases hlookup : members.lookup "status" with
    | none => exact givesOnce_of_hasDistinctKeys rfl
    | some before =>
      have hmem := (Json.lookup_eq_some_iff_mem hnodup).mp hlookup
      exact givesOnce_of_hasDistinctKeys (hparts _ hmem)
  obtain ⟨changed, hchanged, hread⟩ :=
    s.readsStatus_merged_of_givesOnce (Json.tail_valuesOf_of_nodup hnodup "status") hbefore
  obtain rfl := Json.object.inj ((s.merge_patchBody_eq members).symm.trans hchanged)
  exact hread

end Status

/-! ### Both patches -/

/-- The two patches can be made in either order. -/
theorem Spec.replaceIn?_mergeIn {k : Kind} (spec : k.Spec) (s : Status)
    {members replaced : List (String × Json)} (h : replaceIn? spec members = some replaced) :
    replaceIn? spec (s.mergeIn members) = some (s.mergeIn replaced) := by
  have hstatus : replaced.lookup "status" = members.lookup "status" := by
    rw [Json.lookup_eq_head?_valuesOf, Json.lookup_eq_head?_valuesOf,
      sameExcept_of_replaceIn? h "status" (by decide)]
  rw [Status.mergeIn, replaceIn?, Json.updateMember?_setMember (by decide)]
  rw [replaceIn?] at h
  rw [h, Option.map_some, Status.mergeIn, hstatus]

namespace Instances

variable {k : Kind}

/-- A patch of the spec and one of the status stay apart in a document: `replaced` and `merged` are
what each of them makes of it, and `both` is what they make of it together. -/
structure PatchesApart (k : Kind) (spec : k.Spec) (status : Status)
    (doc replaced merged both : Json) : Prop where
  replace : Json.replaceAll? (Spec.patchOps k spec) doc = some replaced
  merge : status.patchBody.merge doc = merged
  replace_then_merge : status.patchBody.merge replaced = both
  merge_then_replace : Json.replaceAll? (Spec.patchOps k spec) merged = some both
  replace_again : Json.replaceAll? (Spec.patchOps k spec) replaced = some replaced
  merge_again : status.patchBody.merge merged = merged
  merge_another (status' : Status) : status'.patchBody.merge merged = status'.patchBody.merge doc
  replace_spec_only : Json.SameExcept "spec" doc replaced
  merge_status_only : Json.SameExcept "status" doc merged
  keeps_foreign (before : List (String × Json)) (h : doc.get? "status" = some (.object before)) :
    ∃ after, merged.get? "status" = some (.object after) ∧
      ∀ name, name ≠ "state" → name ≠ "message" →
        Json.valuesOf name (.object after) = Json.valuesOf name (.object before)
  reads_spec (hkeys : doc.hasDistinctKeys = true) : Object.ReadsSpec (both.valuesOf "spec") spec
  reads_status (hkeys : doc.hasDistinctKeys = true) :
    Object.ReadsStatus (both.valuesOf "status") (some status)
  reads_object (hkeys : doc.hasDistinctKeys = true) (m : Metadata)
    (hm : Object.ReadsMetadata (doc.valuesOf "metadata") m) :
    Decoder.ofJson (Object.decode k) both = .ok { metadata := m, spec, status := some status }

/-- **The two patches stay apart** in every document that has a spec, whatever spec, status and
other members it has. -/
theorem patches_apart (k : Kind) {members : List (String × Json)}
    (hspec : (members.lookup "spec").isSome = true) (spec : k.Spec) (status : Status) :
    ∃ replaced merged both : Json,
      PatchesApart k spec status (.object members) replaced merged both := by
  obtain ⟨old, hold⟩ := Option.isSome_iff_exists.mp hspec
  obtain ⟨replaced, hreplaced⟩ := Spec.exists_replaceIn? spec hold
  have hboth := Spec.replaceIn?_mergeIn spec status hreplaced
  have hspecs := status.sameExcept_mergeIn replaced
  have hstatuses := Spec.sameExcept_of_replaceIn? hboth
  have hreads_spec (hkeys : (Json.object members).hasDistinctKeys = true) :
      Object.ReadsSpec (Json.valuesOf "spec" (.object (status.mergeIn replaced))) spec := by
    rw [hspecs "spec" (by decide)]
    have hnodup := (Json.hasDistinctKeys_object.mp hkeys).1
    exact Spec.readsSpec_of_replaceIn? hreplaced (Json.tail_valuesOf_of_nodup hnodup "spec")
  have hreads_status (hkeys : (Json.object members).hasDistinctKeys = true) :
      Object.ReadsStatus (Json.valuesOf "status" (.object (status.mergeIn replaced)))
        (some status) := by
    rw [hstatuses "status" (by decide)]
    exact status.readsStatus_mergeIn hkeys
  refine ⟨.object replaced, .object (status.mergeIn members), .object (status.mergeIn replaced),
    { replace := by rw [Spec.replaceAll?_patchOps, hreplaced, Option.map_some]
      merge := status.merge_patchBody_eq members
      replace_then_merge := status.merge_patchBody_eq replaced
      merge_then_replace := by rw [Spec.replaceAll?_patchOps, hboth, Option.map_some]
      replace_again := by
        rw [Spec.replaceAll?_patchOps, Spec.replaceIn?_of_replaceIn? hreplaced, Option.map_some]
      merge_again := by rw [← status.merge_patchBody_eq, status.merge_merge status]
      merge_another := fun status' => by rw [← status.merge_patchBody_eq, status.merge_merge]
      replace_spec_only := Spec.sameExcept_of_replaceIn? hreplaced
      merge_status_only := status.sameExcept_mergeIn members
      keeps_foreign := fun before h => status.exists_foreign_kept h
      reads_spec := hreads_spec
      reads_status := hreads_status
      reads_object := fun hkeys m hm => Object.ofJson_object_iff.mpr
        ⟨?_, hreads_spec hkeys, hreads_status hkeys⟩ }⟩
  rwa [hspecs "metadata" (by decide),
    Spec.sameExcept_of_replaceIn? hreplaced "metadata" (by decide)]

/-- A document whose spec and status cannot be read, beside members that no one knows. -/
def oddDocument : List (String × Json) :=
  [("metadata", .object [("name", .string "x")]), ("spec", .null), ("extra", .int 1),
    ("status", .object [("state", .int 5), ("reason", .string "odd")])]

theorem patches_apart_oddDocument :
    (oddDocument.lookup "spec").isSome = true ∧ (Json.object oddDocument).hasDistinctKeys = true ∧
    ∃ replaced merged both : Json,
      PatchesApart .test ⟨"bye", false⟩ .processed (.object oddDocument) replaced merged both ∧
      Decoder.ofJson (Object.decode .test) both = .ok
        { metadata := .named "x", spec := ⟨"bye", false⟩, status := some Status.processed } := by
  have hspec : (oddDocument.lookup "spec").isSome = true := by decide
  have hkeys : (Json.object oddDocument).hasDistinctKeys = true := by decide
  obtain ⟨replaced, merged, both, h⟩ := patches_apart .test hspec ⟨"bye", false⟩ Status.processed
  exact ⟨hspec, hkeys, replaced, merged, both, h, h.reads_object hkeys _ ⟨_, rfl, rfl⟩⟩

end Instances

end CustomResource
