import CustomResource.Proofs.Decode.Fields
import CustomResource.Proofs.Json.Members

/-!
# Records by the values of their fields

A record is read from an object field by field. What becomes of a field depends on the values of its
name alone: a strict record takes one value of it, and any other record the last one, if all can be
read. So objects in which a field has the same values agree in it, whatever else they hold.

## Main definitions

* `Record.gather`: what becomes of a field, from the values of its name.

## Main results

* `Record.members_eq_ok_iff`: the members of an object, field by field.
* `Record.strict_object_iff`, `lenient_object_iff`: whole records.
-/

namespace CustomResource.Record

variable {F α : Type} {r : Record F α} {strict : Bool} {depth : Nat}

/-- What becomes of a field that has some value or none so far, from more values of its name. None
where one of them cannot be read, or is one too many for a strict record. -/
def gather (r : Record F α) (strict : Bool) (depth : Nat) (f : F) :
    List Json → Option (r.Value f) → Option (Option (r.Value f))
  | [], slot => some slot
  | value :: values, slot =>
    if strict ∧ slot.isSome then none
    else (r.read f depth value.toNode).toOption.bind fun x =>
      r.gather strict depth f values (some x)

theorem gather_cons_of_read {f : F} {value : Json} {values : List Json}
    {slot : Option (r.Value f)} (hslot : ¬ (strict ∧ slot.isSome)) {x : r.Value f}
    (hread : r.read f depth value.toNode = .ok x) :
    r.gather strict depth f (value :: values) slot =
      r.gather strict depth f values (some x) := by
  rw [gather, if_neg hslot, hread]
  rfl

theorem gather_eq_take (f : F) (values : List Json) (slot : Option (r.Value f)) :
    r.gather strict depth f values slot =
      r.take strict depth f (values.map Json.toNode) slot := by
  induction values generalizing slot with
  | nil => rfl
  | cons value values ih =>
    rw [gather, List.map_cons, take]
    exact if_congr Iff.rfl rfl (congrArg _ (funext fun x => ih (some x)))

/-- A strict record takes no value of a field or one. -/
theorem gather_strict_eq_some_iff {f : F} {values : List Json} {slot : Option (r.Value f)} :
    r.gather true depth f values none = some slot ↔
      (values = [] ∧ slot = none) ∨
        ∃ value x, values = [value] ∧ r.read f depth value.toNode = .ok x ∧ slot = some x := by
  rw [gather_eq_take, take_strict_eq_some_iff, List.map_eq_nil_iff]
  refine or_congr_right ?_
  simp only [List.map_eq_singleton_iff]
  constructor
  · rintro ⟨_, x, ⟨value, hvalues, rfl⟩, hread, hslot⟩
    exact ⟨value, x, hvalues, hread, hslot⟩
  · rintro ⟨value, x, hvalues, hread, hslot⟩
    exact ⟨_, x, ⟨value, hvalues, rfl⟩, hread, hslot⟩

theorem tail_eq_nil_of_gather {f : F} {values : List Json} {slot : Option (r.Value f)}
    (h : r.gather true depth f values none = some slot) : values.tail = [] := by
  obtain ⟨rfl, -⟩ | ⟨value, x, rfl, -, -⟩ := gather_strict_eq_some_iff.mp h <;> rfl

theorem gather_strict_eq_some_some_iff {f : F} {values : List Json} {x : r.Value f} :
    r.gather true depth f values none = some (some x) ↔
      ∃ value, values = [value] ∧ r.read f depth value.toNode = .ok x := by
  rw [gather_strict_eq_some_iff]
  constructor
  · rintro (⟨-, hnone⟩ | ⟨value, x', hvalues, hread, hx⟩)
    · exact nomatch hnone
    · exact ⟨value, hvalues, hread.trans (congrArg _ (Option.some.inj hx).symm)⟩
  · rintro ⟨value, hvalues, hread⟩
    exact .inr ⟨value, x, hvalues, hread, rfl⟩

/-- Any other record needs to be able to read all values of a field. -/
theorem exists_gather {f : F} {values : List Json}
    (h : ∀ value ∈ values, ∃ x, r.read f depth value.toNode = .ok x) (slot : Option (r.Value f)) :
    ∃ slot', r.gather false depth f values slot = some slot' := by
  induction values generalizing slot with
  | nil => exact ⟨slot, rfl⟩
  | cons value values ih =>
    obtain ⟨⟨x, hx⟩, hrest⟩ := List.forall_mem_cons.mp h
    rw [gather_cons_of_read (by simp) hx]
    exact ih hrest (some x)

/-- The last value of a field is kept. -/
theorem gather_getLast? {f : F} {values : List Json} {slot slot' : Option (r.Value f)}
    (h : r.gather false depth f values slot = some slot') {value : Json}
    (hlast : values.getLast? = some value) :
    ∃ x, r.read f depth value.toNode = .ok x ∧ slot' = some x := by
  induction values generalizing slot with
  | nil => simp at hlast
  | cons first values ih =>
    rw [gather, if_neg (by simp)] at h
    cases hread : r.read f depth first.toNode with
    | error e => simp [hread, Except.toOption] at h
    | ok x =>
      simp only [hread, Except.toOption, Option.bind_some] at h
      cases values with
      | nil =>
        obtain rfl : first = value := by simpa using hlast
        exact ⟨x, hread, by simpa [gather] using h.symm⟩
      | cons second values => exact ih h (by simpa using hlast)

/-- What is written for a record has the values of its fields. -/
theorem valuesOf_written (hnamed : r.Named) (hfields : r.fields.Nodup) (values : F → Option Json)
    (f : F) : Json.valuesOf (r.name f) (.object (r.written values)) = (values f).toList := by
  rw [Json.valuesOf_of_nodup (nodup_keys_written hnamed hfields values),
    lookup_written hnamed hfields]

/-- No member of the document of an object is an obstacle. -/
theorem passes_memberNodes (members : List (String × Json)) :
    ∀ m ∈ Json.memberNodes members, r.Passes m := by
  induction members with
  | nil => exact nofun
  | cons m members ih =>
    rw [Json.memberNodes]
    exact List.forall_mem_cons.mpr ⟨⟨m.1, rfl, fun _ => Json.skip_toNode m.2⟩, ih⟩

variable [DecidableEq F]

/-- The members of the document of an object that has a field are those of its name. -/
theorem given_memberNodes (hnamed : r.Named) (f : F) (members : List (String × Json)) :
    r.given f (Json.memberNodes members) =
      (Json.valuesOf (r.name f) (.object members)).map Json.toNode := by
  induction members with
  | nil => rfl
  | cons m members ih =>
    obtain ⟨name, value⟩ := m
    rw [Json.memberNodes]
    have hfield : r.fieldOf? (.ofValue name) = r.find? name := fieldOf?_of_value rfl
    by_cases hname : name = r.name f
    · subst hname
      rw [given_cons_self (hfield.trans (hnamed f)), Json.valuesOf_cons_self, ih]
      rfl
    · rw [Json.valuesOf_cons_of_ne hname, ← ih]
      cases hfind : r.find? name with
      | none => rw [given_cons_of_none (hfield.trans hfind)]
      | some g =>
        have hne : g ≠ f := fun heq => hname (heq ▸ (name_of_find? hfind).symm)
        rw [given_cons_of_ne (hfield.trans hfind) hne]

/-- **The members of an object** are read if the values of every field are. -/
theorem members_eq_ok_iff (hnamed : r.Named) {members : List (String × Json)}
    {slots slots' : Slots r.Value} :
    r.members strict depth (Json.memberNodes members) none slots = .ok slots' ↔
      ∀ f, r.gather strict depth f (Json.valuesOf (r.name f) (.object members)) (slots f) =
        some (slots' f) := by
  rw [members_eq_ok_iff_given]
  simp only [given_memberNodes hnamed, ← gather_eq_take, true_and]
  exact and_iff_right (passes_memberNodes members)

theorem build_members_eq_ok_iff (hnamed : r.Named) {members : List (String × Json)} {a : α} :
    (Decoder.descend depth >>= fun left =>
        r.members strict left (Json.memberNodes members) none Slots.empty >>= r.build) = .ok a ↔
      ∃ left slots, Decoder.descend depth = .ok left ∧ r.build slots = .ok a ∧
        ∀ f, r.gather strict left f (Json.valuesOf (r.name f) (.object members)) none =
          some (slots f) := by
  rw [bind_members_eq_ok_iff]
  simp only [members_eq_ok_iff hnamed]
  exact exists_congr fun left => exists_congr fun slots => and_congr_right' and_comm

/-- What a strict record is read from, if it is read from an object. -/
theorem strict_object_iff (hnamed : r.Named) {members : List (String × Json)} {a : α} :
    r.strict depth (Json.object members).toNode = .ok a ↔
      ∃ left slots, Decoder.descend depth = .ok left ∧ r.build slots = .ok a ∧
        ∀ f, r.gather true left f (Json.valuesOf (r.name f) (.object members)) none =
          some (slots f) :=
  build_members_eq_ok_iff hnamed

/-- What any other record is read from. -/
theorem lenient_object_iff (hnamed : r.Named) {members : List (String × Json)} {a : α} :
    r.lenient depth (Json.object members).toNode = .ok a ↔
      ∃ left slots, Decoder.descend depth = .ok left ∧ r.build slots = .ok a ∧
        ∀ f, r.gather false left f (Json.valuesOf (r.name f) (.object members)) none =
          some (slots f) :=
  build_members_eq_ok_iff hnamed

/-- Nothing but an object is read as a lenient record. -/
theorem exists_object_of_lenient {value : Json} {a : α}
    (h : r.lenient depth value.toNode = .ok a) : ∃ members, value = .object members := by
  cases value with
  | object members => exact ⟨members, rfl⟩
  | array items =>
    rw [Json.toNode, lenient] at h
    cases hdepth : Decoder.descend depth <;> simp [hdepth, bind, Except.bind] at h
  | _ => simp [lenient, Json.toNode] at h

end CustomResource.Record
