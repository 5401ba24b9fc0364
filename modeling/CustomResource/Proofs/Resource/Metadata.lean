import CustomResource.Proofs.Decode.Form
import CustomResource.Resource.Metadata

/-!
# Metadata read back

Metadata that has been read is written and read again without loss, but for the fractions of seconds
in its timestamps. Each of the three records of which metadata consists is shown to be stable, from
the values of its fields.

## Main definitions

* `Metadata.toSecond`: metadata without fractions of seconds.
* `Metadata.timestamps`: all timestamps in metadata.
* `Metadata.hasNoDoubles`: metadata without doubles in the fields that managers own.

## Main results

* `Metadata.stable_decode`: metadata is read back to the second.
* `Metadata.encode_toSecond`: nothing more is written.
* `Metadata.isExact_of_decode`: metadata without doubles is read from its text.
-/

namespace CustomResource

open Decoder

theorem map_eq_self_iff {α : Type} {f : α → α} {x : Option α} :
    x.map f = x ↔ ∀ a, x = some a → f a = a := by
  cases x <;> simp

theorem join_map_some {α : Type} (x : Option α) : (x.map some).join = x := by
  cases x <;> rfl

namespace Json

theorem isExact_int {n : Int} (hlow : -9223372036854775808 ≤ n)
    (hhigh : n ≤ 18446744073709551615) : (int n).isExact = true :=
  Bool.and_eq_true_iff.mpr ⟨decide_eq_true hlow, decide_eq_true hhigh⟩

theorem isExact_int64 (n : Int64) : (int n.toInt).isExact = true := by
  have hlow := n.le_toInt
  have hhigh := n.toInt_lt
  exact isExact_int (by omega) (by omega)

theorem isExact_int32 (n : Int32) : (int n.toInt).isExact = true := by
  have hlow := n.le_toInt
  have hhigh := n.toInt_lt
  exact isExact_int (by omega) (by omega)

theorem isExact_ofStrings (items : List String) : (ofStrings items).isExact = true := by
  refine isExact_array.mpr fun item hitem => ?_
  obtain ⟨s, -, rfl⟩ := List.mem_map.mp hitem
  rfl

theorem isExact_ofStringMap (entries : List (String × String)) :
    (ofStringMap entries).isExact = true := by
  refine isExact_object.mpr fun e he => ?_
  obtain ⟨e, -, rfl⟩ := List.mem_map.mp he
  rfl

end Json

/-! ### Owner references -/

namespace OwnerReference

/-- How an owner reference is written. -/
def form : record.Form encode where
  others := []
  values r
    | .apiVersion => some (.string r.apiVersion)
    | .blockOwnerDeletion => r.blockOwnerDeletion.map .bool
    | .controller => r.controller.map .bool
    | .kind => some (.string r.kind)
    | .name => some (.string r.name)
    | .uid => some (.string r.uid)
  slots r
    | .apiVersion => some (some r.apiVersion)
    | .blockOwnerDeletion => r.blockOwnerDeletion.map some
    | .controller => r.controller.map some
    | .kind => some (some r.kind)
    | .name => some (some r.name)
    | .uid => some (some r.uid)
  named f := by cases f <;> rfl
  nodup_fields := by decide
  others_no_field := nofun
  encode_eq r := by simp [encode, Record.written, record, Json.optional]
  build_slots r := by simp only [record, join_map_some, Option.join_some, Option.getD_some]

theorem readsBack (left : Nat) : form.ReadsBack id left := by
  intro nodes found r hbuild hfound f
  obtain rfl := Except.ok.inj hbuild
  have hfield := hfound f
  cases f with
  | blockOwnerDeletion | controller => exact stable_bool.optional_rel_id hfield
  | apiVersion | kind | name | uid => exact .some rfl

theorem stable_decode (depth : Nat) : Stable decode encode id depth :=
  form.stable_lenient fun left _ => readsBack left

theorem isExact_encode (r : OwnerReference) : r.encode.isExact = true := by
  refine form.isExact_encode nofun fun f value hvalue => ?_
  cases f with
  | blockOwnerDeletion | controller =>
    obtain ⟨b, -, rfl⟩ := Option.map_eq_some_iff.mp hvalue
    rfl
  | _ =>
    obtain rfl := Option.some.inj hvalue
    rfl

end OwnerReference

/-! ### Managed fields -/

namespace ManagedFieldsEntry

/-- An entry without the fraction of the second in its time. -/
def toSecond (e : ManagedFieldsEntry) : ManagedFieldsEntry :=
  { e with time := e.time.map Timestamp.toSecond }

/-- Whether there is no double among the fields that a manager owns. -/
def hasNoDoubles (e : ManagedFieldsEntry) : Bool := e.fieldsV1.all Json.hasNoDoubles

/-- How an entry is written. -/
def form : record.Form encode where
  others := []
  values e
    | .apiVersion => e.apiVersion.map .string
    | .fieldsType => e.fieldsType.map .string
    | .fieldsV1 => e.fieldsV1.map id
    | .manager => e.manager.map .string
    | .operation => e.operation.map .string
    | .subresource => e.subresource.map .string
    | .time => e.time.map fun t => .string t.render
  slots e
    | .apiVersion => e.apiVersion.map some
    | .fieldsType => e.fieldsType.map some
    | .fieldsV1 => e.fieldsV1.map some
    | .manager => e.manager.map some
    | .operation => e.operation.map some
    | .subresource => e.subresource.map some
    | .time => e.time.map some
  named f := by cases f <;> rfl
  nodup_fields := by decide
  others_no_field := nofun
  encode_eq e := by simp [encode, Record.written, record]
  build_slots e := by simp only [record, join_map_some]

theorem readsBack (left : Nat) : form.ReadsBack toSecond left := by
  intro nodes found e hbuild hfound f
  obtain rfl := Except.ok.inj hbuild
  have hfield := hfound f
  cases f with
  | fieldsV1 => exact stable_json.optional_rel_id hfield
  | time => exact stable_timestamp.optional_rel hfield
  | apiVersion | fieldsType | manager | operation | subresource =>
    exact stable_string.optional_rel_id hfield

theorem stable_decode (depth : Nat) : Stable decode encode toSecond depth :=
  form.stable_lenient fun left _ => readsBack left

theorem encode_toSecond (e : ManagedFieldsEntry) : e.toSecond.encode = e.encode := by
  rw [encode, toSecond]
  simp only [Option.map_map, Function.comp_def, Timestamp.render_toSecond]
  rfl

/-- An entry loses nothing exactly if its time has no fraction of a second. -/
theorem toSecond_eq_self_iff {e : ManagedFieldsEntry} :
    e.toSecond = e ↔ ∀ t, e.time = some t → t.time.nanosecond = 0 := by
  have htime : e.toSecond = e ↔ e.time.map Timestamp.toSecond = e.time := by
    cases e
    simp [toSecond]
  rw [htime, map_eq_self_iff]
  exact forall₂_congr fun t _ => Timestamp.toSecond_eq_self_iff

theorem isExact_encode {e : ManagedFieldsEntry}
    (h : ∀ v, e.fieldsV1 = some v → v.isExact = true) : e.encode.isExact = true := by
  refine form.isExact_encode nofun fun f value hvalue => ?_
  cases f with
  | fieldsV1 =>
    obtain ⟨v, hv, rfl⟩ := Option.map_eq_some_iff.mp hvalue
    exact h v hv
  | _ =>
    obtain ⟨x, -, rfl⟩ := Option.map_eq_some_iff.mp hvalue
    rfl

theorem isExact_of_decode {depth : Nat} {node : Json.Node} {e : ManagedFieldsEntry}
    (hnode : node.InRange) (h : decode depth node = .ok e) (he : e.hasNoDoubles = true) :
    e.encode.isExact = true := by
  obtain ⟨left, found, -, hbuild, hfound⟩ := Record.lenient_eq_ok h
  obtain rfl := Except.ok.inj hbuild
  refine isExact_encode fun v hv => ?_
  have hv : (found .fieldsV1).join = some v := hv
  obtain ⟨child, hmem, -, hchild⟩ := exists_read_of_join (hfound .fieldsV1) hv
  refine isExact_of_json (hnode.of_mem_children hmem) hchild ?_
  simpa [hasNoDoubles, hv] using he

end ManagedFieldsEntry

/-! ### Metadata -/

namespace Metadata

/-- Metadata without the fractions of seconds. -/
def toSecond (m : Metadata) : Metadata :=
  { m with
    creationTimestamp := m.creationTimestamp.map Timestamp.toSecond
    deletionTimestamp := m.deletionTimestamp.map Timestamp.toSecond
    managedFields := m.managedFields.map (List.map ManagedFieldsEntry.toSecond) }

/-- All timestamps in metadata. -/
def timestamps (m : Metadata) : List Timestamp :=
  m.creationTimestamp.toList ++ m.deletionTimestamp.toList ++
    (m.managedFields.getD []).filterMap ManagedFieldsEntry.time

/-- Whether there is no double among the fields that managers own. -/
def hasNoDoubles (m : Metadata) : Bool :=
  (m.managedFields.getD []).all ManagedFieldsEntry.hasNoDoubles

/-- How metadata is written. -/
def form : record.Form encode where
  others := []
  values m
    | .annotations => m.annotations.map Json.ofStringMap
    | .creationTimestamp => m.creationTimestamp.map fun t => .string t.render
    | .deletionGracePeriodSeconds => m.deletionGracePeriodSeconds.map fun n => .int n.toInt
    | .deletionTimestamp => m.deletionTimestamp.map fun t => .string t.render
    | .finalizers => m.finalizers.map Json.ofStrings
    | .generateName => m.generateName.map .string
    | .generation => m.generation.map fun n => .int n.toInt
    | .labels => m.labels.map Json.ofStringMap
    | .managedFields => m.managedFields.map fun es => .array (es.map ManagedFieldsEntry.encode)
    | .name => m.name.map .string
    | .namespaceName => m.namespaceName.map .string
    | .ownerReferences => m.ownerReferences.map fun rs => .array (rs.map OwnerReference.encode)
    | .resourceVersion => m.resourceVersion.map .string
    | .selfLink => m.selfLink.map .string
    | .uid => m.uid.map .string
  slots m
    | .annotations => m.annotations.map some
    | .creationTimestamp => m.creationTimestamp.map some
    | .deletionGracePeriodSeconds => m.deletionGracePeriodSeconds.map some
    | .deletionTimestamp => m.deletionTimestamp.map some
    | .finalizers => m.finalizers.map some
    | .generateName => m.generateName.map some
    | .generation => m.generation.map some
    | .labels => m.labels.map some
    | .managedFields => m.managedFields.map some
    | .name => m.name.map some
    | .namespaceName => m.namespaceName.map some
    | .ownerReferences => m.ownerReferences.map some
    | .resourceVersion => m.resourceVersion.map some
    | .selfLink => m.selfLink.map some
    | .uid => m.uid.map some
  named f := by cases f <;> rfl
  nodup_fields := by decide
  others_no_field := nofun
  encode_eq m := by simp [encode, Record.written, record]
  build_slots m := by simp only [record, join_map_some]

theorem readsBack (left : Nat) : form.ReadsBack toSecond left := by
  intro nodes found m hbuild hfound f
  obtain rfl := Except.ok.inj hbuild
  have hfield := hfound f
  cases f with
  | annotations | labels => exact stable_stringMap.optional_rel_id hfield
  | creationTimestamp | deletionTimestamp => exact stable_timestamp.optional_rel hfield
  | deletionGracePeriodSeconds | generation => exact stable_int64.optional_rel_id hfield
  | finalizers => exact stable_strings.optional_rel_id hfield
  | managedFields => exact (stable_list ManagedFieldsEntry.stable_decode).optional_rel hfield
  | ownerReferences => exact (stable_list_id OwnerReference.stable_decode).optional_rel_id hfield
  | generateName | name | namespaceName | resourceVersion | selfLink | uid =>
    exact stable_string.optional_rel_id hfield

/-- **Metadata is read back** to the second. -/
theorem stable_decode (depth : Nat) : Stable decode encode toSecond depth :=
  form.stable_lenient fun left _ => readsBack left

/-- The fractions of seconds are not written. -/
theorem encode_toSecond (m : Metadata) : m.toSecond.encode = m.encode := by
  rw [encode, toSecond]
  simp only [Option.map_map, Function.comp_def, Timestamp.render_toSecond, List.map_map,
    ManagedFieldsEntry.encode_toSecond]
  rfl

/-- Metadata loses nothing exactly if no timestamp in it has a fraction of a second. -/
theorem toSecond_eq_self_iff {m : Metadata} :
    m.toSecond = m ↔ ∀ t ∈ m.timestamps, t.time.nanosecond = 0 := by
  have hentries : ∀ es : List ManagedFieldsEntry, es.map ManagedFieldsEntry.toSecond = es ↔
      ∀ e ∈ es, ∀ t, e.time = some t → t.time.nanosecond = 0 := by
    intro es
    have h := List.map_inj_left (f := ManagedFieldsEntry.toSecond) (g := id) (l := es)
    rw [List.map_id] at h
    exact h.trans (forall₂_congr fun e _ => ManagedFieldsEntry.toSecond_eq_self_iff)
  have hfields : m.toSecond = m ↔
      m.creationTimestamp.map Timestamp.toSecond = m.creationTimestamp ∧
      m.deletionTimestamp.map Timestamp.toSecond = m.deletionTimestamp ∧
      m.managedFields.map (List.map ManagedFieldsEntry.toSecond) = m.managedFields := by
    cases m
    simp [toSecond]
  have hmanaged : (∀ es, m.managedFields = some es → es.map ManagedFieldsEntry.toSecond = es) ↔
      ∀ e ∈ m.managedFields.getD [], ∀ t, e.time = some t → t.time.nanosecond = 0 := by
    cases m.managedFields <;> simp [hentries]
  rw [hfields, map_eq_self_iff, map_eq_self_iff, map_eq_self_iff, hmanaged]
  simp only [Timestamp.toSecond_eq_self_iff, timestamps, List.mem_append, Option.mem_toList,
    List.mem_filterMap]
  constructor
  · rintro ⟨hcreated, hdeleted, hmanaged⟩ t ((ht | ht) | ⟨e, he, ht⟩)
    · exact hcreated t ht
    · exact hdeleted t ht
    · exact hmanaged e he t ht
  · intro h
    exact ⟨fun t ht => h t (Or.inl (Or.inl ht)), fun t ht => h t (Or.inl (Or.inr ht)),
      fun e he t ht => h t (Or.inr ⟨e, he, ht⟩)⟩

theorem isExact_encode {m : Metadata}
    (h : ∀ es, m.managedFields = some es → ∀ e ∈ es, e.encode.isExact = true) :
    m.encode.isExact = true := by
  refine form.isExact_encode nofun fun f value hvalue => ?_
  cases f with
  | managedFields =>
    obtain ⟨es, hes, rfl⟩ := Option.map_eq_some_iff.mp hvalue
    refine Json.isExact_array.mpr fun value hvalue => ?_
    obtain ⟨e, he, rfl⟩ := List.mem_map.mp hvalue
    exact h es hes e he
  | ownerReferences =>
    obtain ⟨rs, -, rfl⟩ := Option.map_eq_some_iff.mp hvalue
    refine Json.isExact_array.mpr fun value hvalue => ?_
    obtain ⟨r, -, rfl⟩ := List.mem_map.mp hvalue
    exact r.isExact_encode
  | annotations | labels =>
    obtain ⟨entries, -, rfl⟩ := Option.map_eq_some_iff.mp hvalue
    exact Json.isExact_ofStringMap entries
  | finalizers =>
    obtain ⟨items, -, rfl⟩ := Option.map_eq_some_iff.mp hvalue
    exact Json.isExact_ofStrings items
  | generation | deletionGracePeriodSeconds =>
    obtain ⟨n, -, rfl⟩ := Option.map_eq_some_iff.mp hvalue
    exact Json.isExact_int64 n
  | _ =>
    obtain ⟨x, -, rfl⟩ := Option.map_eq_some_iff.mp hvalue
    rfl

/-- **Metadata without doubles is read from its text.** -/
theorem isExact_of_decode {depth : Nat} {node : Json.Node} {m : Metadata} (hnode : node.InRange)
    (h : decode depth node = .ok m) (hm : m.hasNoDoubles = true) : m.encode.isExact = true := by
  obtain ⟨left, found, -, hbuild, hfound⟩ := Record.lenient_eq_ok h
  obtain rfl := Except.ok.inj hbuild
  refine isExact_encode fun es hes e he => ?_
  have hes : (found .managedFields).join = some es := hes
  obtain ⟨child, hmem, -, hchild⟩ := exists_read_of_join (hfound .managedFields) hes
  obtain ⟨_, -, horigin⟩ := list_eq_ok hchild
  obtain ⟨entry, hentry, hread⟩ := horigin e he
  have hentries := (hnode.of_mem_children hmem).of_mem_children hentry
  refine ManagedFieldsEntry.isExact_of_decode hentries hread ?_
  simp only [hasNoDoubles, hes, Option.getD_some, List.all_eq_true] at hm
  exact hm e he

end Metadata

end CustomResource
