import CustomResource.Proofs.Decode.Stable
import CustomResource.Proofs.Json.Reading

/-!
# How records are written

Every record is written as an object whose members are its fields in order, those that are missing
left out. What is common to the records on the way through JSON is stated here once: it is enough to
know what is written for each field, and that each field is read back.

## Main definitions

* `Record.Form`: the object that is written for a record, and the fields from which the value is
  built again.
* `Record.Form.ReadsBack`: each field of a value that has been read is read back.

## Main results

* `Record.Form.stable_lenient`, `stable_strict`: a record is read back if its fields are.
* `Record.Form.strict_encode`: the same for a value that need not have been read.
* `Record.Form.isExact_encode`: a record is read from its text if its fields are.
-/

namespace CustomResource.Record

variable {F α : Type} [DecidableEq F] {r : Record F α} {depth left : Nat}

/-- Members that are no fields are passed over. -/
theorem members_append_of_find?_eq_none (strict : Bool) {others members : List (String × Json)}
    (h : ∀ m ∈ others, r.find? m.1 = none) (slots : Slots r.Value) :
    r.members strict depth (Json.memberNodes (others ++ members)) none slots =
      r.members strict depth (Json.memberNodes members) none slots := by
  induction others with
  | nil => rfl
  | cons m others ih =>
    obtain ⟨hfirst, hrest⟩ := List.forall_mem_cons.mp h
    rw [List.cons_append, Json.memberNodes, Record.members]
    simp only [Decoder.key, Json.Lexeme.ofValue, Except.mapError, hfirst, Json.skip_toNode]
    exact ih hrest

/-- How a record is written: members that are no fields of it, and then the fields that have a
value. The value can be built of its fields again. -/
structure Form (r : Record F α) (encode : α → Json) where
  others : List (String × Json)
  values : α → F → Option Json
  slots : α → Slots r.Value
  named : r.Named
  nodup_fields : r.fields.Nodup
  others_no_field : ∀ m ∈ others, r.find? m.1 = none
  encode_eq : ∀ a, encode a = .object (others ++ r.written (values a))
  build_slots : ∀ a, r.build (slots a) = .ok a

namespace Form

variable {encode : α → Json} (form : r.Form encode) {norm : α → α}

/-- From what is written for a value, and has been read from some document, each field is read
back. -/
def ReadsBack (norm : α → α) (left : Nat) : Prop :=
  ∀ (nodes : List Json.Node) (found : Slots r.Value) (a : α), r.build found = .ok a →
    (∀ f x, found f = some x → ∃ child ∈ nodes, r.read f left child = .ok x) →
      ∀ f, Option.Rel (fun value x => r.read f left value.toNode = .ok x) (form.values a f)
        (form.slots (norm a) f)

theorem members_others_written (strict : Bool) {values : F → Option Json} {slots : Slots r.Value}
    (h : ∀ f, Option.Rel (fun value x => r.read f left value.toNode = .ok x) (values f)
      (slots f)) :
    r.members strict left (Json.memberNodes (form.others ++ r.written values)) none Slots.empty =
      .ok slots := by
  rw [members_append_of_find?_eq_none strict form.others_no_field]
  exact members_written form.named form.nodup_fields strict h

omit [DecidableEq F] in
include form in
theorem encode_ne_null (a : α) : encode a ≠ .null := by
  rw [form.encode_eq]
  simp

/-- **A record is read back if its fields are.** -/
theorem stable_lenient (h : ∀ left, Decoder.descend depth = .ok left → form.ReadsBack norm left) :
    Decoder.Stable r.lenient encode norm depth where
  read {node a} hread := by
    obtain ⟨left, found, hdepth, hbuild, horigin⟩ := lenient_eq_ok hread
    have hmembers := form.members_others_written false (h left hdepth _ found a hbuild horigin)
    rw [form.encode_eq, lenient_object hdepth hmembers, form.build_slots]
  null _ hnull := absurd hnull (form.encode_ne_null _)

/-- What is written for a value is read as another one if that is so for each field. -/
theorem strict_encode (hdepth : Decoder.descend depth = .ok left) {a b : α}
    (h : ∀ f, Option.Rel (fun value x => r.read f left value.toNode = .ok x) (form.values a f)
      (form.slots b f)) :
    r.strict depth (encode a).toNode = .ok b := by
  rw [form.encode_eq, strict_object hdepth (form.members_others_written true h), form.build_slots]

theorem stable_strict (h : ∀ left, Decoder.descend depth = .ok left → form.ReadsBack norm left) :
    Decoder.Stable r.strict encode norm depth where
  read {node a} hread := by
    obtain ⟨left, found, hdepth, hbuild, horigin⟩ := strict_eq_ok hread
    exact form.strict_encode hdepth (h left hdepth _ found a hbuild horigin)
  null _ hnull := absurd hnull (form.encode_ne_null _)

omit [DecidableEq F] in
/-- A record is read from its text if its fields are. -/
theorem isExact_encode {a : α} (hothers : ∀ m ∈ form.others, m.2.isExact = true)
    (h : ∀ f value, form.values a f = some value → value.isExact = true) :
    (encode a).isExact = true := by
  rw [form.encode_eq, Json.isExact_object]
  intro m hm
  obtain hm | hm := List.mem_append.mp hm
  · exact hothers m hm
  · obtain ⟨f, -, -, hvalue⟩ := mem_written.mp hm
    exact h f m.2 hvalue

end Form

end CustomResource.Record
