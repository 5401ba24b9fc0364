import CustomResource.Decode.Record
import CustomResource.Proofs.Json.Parts
import Mathlib.Data.List.Forall2

/-!
# Reading records of JSON values

A JSON value has a document without faults, so a decoder that is given one fails only for what the
value is. Here is what the decoders make of such documents: of lists by their items, and of records
by the members that bear the names of fields.

## Main definitions

* `Record.found`: the values of the fields in the members of an object.
* `Record.Named`: different fields of a record have different names.

## Main results

* `Decoder.items_itemNodes`, `list_array`: a list is read if its items are.
* `Record.members_memberNodes`: the members of an object without repeated keys are read if those
  that are fields are.
* `Record.members_written`: the members that are written for a record are read back.
-/

namespace CustomResource

/-! ### Lists -/

namespace Decoder

variable {α : Type} {decode : Decoder α}

theorem descend_eq_ok {depth left : Nat} :
    descend depth = .ok left ↔ depth = left + 1 ∧ 0 < left := by
  rcases depth with _ | _ | depth
  · simp [descend]
  · simp [descend]
  · simp only [descend, Except.ok.injEq]
    omega

theorem items_itemNodes {depth : Nat} {values : List Json} {items : List α}
    (h : List.Forall₂ (fun value item => decode depth value.toNode = .ok item) values items) :
    Decoder.items decode depth (Json.itemNodes values) none = .ok items := by
  induction h with
  | nil => rfl
  | cons hitem _ ih =>
    rw [Json.itemNodes, Decoder.items, hitem, ih]
    rfl

/-- A list is read if its items are. -/
theorem list_array {depth left : Nat} {values : List Json} {items : List α}
    (hdepth : descend depth = .ok left)
    (h : List.Forall₂ (fun value item => decode left value.toNode = .ok item) values items) :
    list decode depth (Json.array values).toNode = .ok items := by
  rw [Json.toNode, list, hdepth]
  exact items_itemNodes h

/-- A value that is not null is read as it would be by itself. -/
theorem optional_eq_some {depth : Nat} {value : Json} {x : α} (hvalue : value ≠ .null)
    (h : decode depth value.toNode = .ok x) :
    optional decode depth value.toNode = .ok (some x) := by
  cases value with
  | null => exact absurd rfl hvalue
  | _ =>
    rw [Json.toNode] at h ⊢
    rw [optional, h]
    · rfl
    · exact nofun

end Decoder

/-! ### Records -/

namespace Record

variable {F α : Type} {r : Record F α} {depth : Nat}

/-- Different fields have different names, and all are listed. -/
def Named (r : Record F α) : Prop := ∀ f, r.find? (r.name f) = some f

theorem name_of_find? {name : String} {f : F} (h : r.find? name = some f) : r.name f = name :=
  of_decide_eq_true (List.find?_some (p := fun f => r.name f = name) h)

theorem Named.injective (h : r.Named) {f g : F} (hname : r.name f = r.name g) : f = g :=
  Option.some.inj ((h f).symm.trans (hname ▸ h g))

theorem Named.mem_fields (h : r.Named) (f : F) : f ∈ r.fields := List.mem_of_find?_eq_some (h f)

/-- The values of the fields in the members of an object. -/
def found (r : Record F α) (depth : Nat) (members : List (String × Json)) : Slots r.Value :=
  fun f => (members.lookup (r.name f)).bind fun value => (r.read f depth value.toNode).toOption

theorem found_cons_of_ne {name : String} {value : Json} {members : List (String × Json)} {f : F}
    (h : r.name f ≠ name) :
    r.found depth ((name, value) :: members) f = r.found depth members f := by
  rw [found, List.lookup_cons, beq_eq_false_iff_ne.mpr h]
  rfl

variable [DecidableEq F]

/-- The induction is on the members. Those before them have set no field that is still to come. -/
theorem members_memberNodes_from (hnamed : r.Named) (strict : Bool)
    {members : List (String × Json)} (hkeys : (members.map Prod.fst).Nodup) {slots : Slots r.Value}
    (hfresh : ∀ f, r.name f ∈ members.map Prod.fst → slots f = none)
    (hread : ∀ f value, (r.name f, value) ∈ members → ∃ x, r.read f depth value.toNode = .ok x) :
    r.members strict depth (Json.memberNodes members) none slots =
      .ok fun f => (r.found depth members f).or (slots f) := by
  induction members generalizing slots with
  | nil => rfl
  | cons m members ih =>
    obtain ⟨name, value⟩ := m
    obtain ⟨hname, hothers⟩ := List.nodup_cons.mp hkeys
    have hrest : ∀ f value, (r.name f, value) ∈ members →
        ∃ x, r.read f depth value.toNode = .ok x :=
      fun f value hf => hread f value (List.mem_cons_of_mem _ hf)
    rw [Json.memberNodes, Record.members]
    simp only [Decoder.key, Json.Lexeme.ofValue, Except.mapError]
    cases hfind : r.find? name with
    | none =>
      have hne : ∀ f, r.name f ≠ name := by
        rintro f rfl
        simp [hnamed f] at hfind
      simp only [Json.skip_toNode]
      rw [ih hothers (fun f hf => hfresh f (List.mem_cons_of_mem _ hf)) hrest]
      exact congrArg Except.ok (funext fun f => by rw [found_cons_of_ne (hne f)])
    | some f =>
      obtain rfl := name_of_find? hfind
      obtain ⟨x, hx⟩ := hread f value List.mem_cons_self
      have hunset : slots f = none := hfresh f List.mem_cons_self
      simp only [hunset, Option.isSome_none, Bool.false_eq_true, and_false, if_false, hx]
      rw [ih hothers ?_ hrest]
      · refine congrArg Except.ok (funext fun g => ?_)
        by_cases hfg : f = g
        · subst hfg
          have hlater : members.lookup (r.name f) = none := by
            rw [List.lookup_eq_none_iff]
            rintro ⟨name', value'⟩ hmem
            refine bne_iff_ne.mpr fun heq => hname ?_
            exact List.mem_map.mpr ⟨_, hmem, heq.symm⟩
          simp [found, hlater, hx, Slots.set, hunset, Except.toOption]
        · rw [found_cons_of_ne fun heq => hfg (hnamed.injective heq.symm), Slots.set, dif_neg hfg]
      · intro g hg
        have hfg : f ≠ g := by
          rintro rfl
          exact hname hg
        rw [Slots.set, dif_neg hfg]
        exact hfresh g (List.mem_cons_of_mem _ hg)

/-- **The members of an object** without repeated keys are read if those that are fields are. -/
theorem members_memberNodes (hnamed : r.Named) (strict : Bool) {members : List (String × Json)}
    (hkeys : (members.map Prod.fst).Nodup)
    (hread : ∀ f value, (r.name f, value) ∈ members → ∃ x, r.read f depth value.toNode = .ok x) :
    r.members strict depth (Json.memberNodes members) none Slots.empty =
      .ok (r.found depth members) := by
  have hfresh : ∀ f, r.name f ∈ members.map Prod.fst → (Slots.empty : Slots r.Value) f = none :=
    fun _ _ => rfl
  rw [members_memberNodes_from hnamed strict hkeys hfresh hread]
  exact congrArg Except.ok (funext fun f => Option.or_none)

theorem strict_object {left : Nat} {members : List (String × Json)} {slots : Slots r.Value}
    (hdepth : Decoder.descend depth = .ok left)
    (h : r.members true left (Json.memberNodes members) none Slots.empty = .ok slots) :
    r.strict depth (Json.object members).toNode = r.build slots := by
  rw [Json.toNode, strict, hdepth]
  change (r.members true left (Json.memberNodes members) none Slots.empty).bind r.build = _
  rw [h]
  rfl

theorem lenient_object {left : Nat} {members : List (String × Json)} {slots : Slots r.Value}
    (hdepth : Decoder.descend depth = .ok left)
    (h : r.members false left (Json.memberNodes members) none Slots.empty = .ok slots) :
    r.lenient depth (Json.object members).toNode = r.build slots := by
  rw [Json.toNode, lenient, hdepth]
  change (r.members false left (Json.memberNodes members) none Slots.empty).bind r.build = _
  rw [h]
  rfl

omit [DecidableEq F] in
/-- A field that is among the members and can be read is found. -/
theorem exists_found {members : List (String × Json)} (hkeys : (members.map Prod.fst).Nodup)
    (hread : ∀ f value, (r.name f, value) ∈ members → ∃ x, r.read f depth value.toNode = .ok x)
    {f : F} (h : (members.lookup (r.name f)).isSome = true) :
    ∃ x, r.found depth members f = some x := by
  obtain ⟨value, hvalue⟩ := Option.isSome_iff_exists.mp h
  obtain ⟨x, hx⟩ := hread f value ((Json.lookup_eq_some_iff_mem hkeys).mp hvalue)
  exact ⟨x, by rw [found, hvalue, Option.bind_some, hx]; rfl⟩

/-! ### What is written is read back -/

/-- The members that are written for the fields that have a value. -/
def written (r : Record F α) (values : F → Option Json) : List (String × Json) :=
  r.fields.flatMap fun f => Json.optional (r.name f) (values f)

omit [DecidableEq F] in
theorem mem_written {values : F → Option Json} {m : String × Json} :
    m ∈ r.written values ↔ ∃ f ∈ r.fields, m.1 = r.name f ∧ values f = some m.2 := by
  simp only [written, List.mem_flatMap, Json.mem_optional]

omit [DecidableEq F] in
theorem nodup_keys_written (hnamed : r.Named) (hfields : r.fields.Nodup)
    (values : F → Option Json) : ((r.written values).map Prod.fst).Nodup := by
  rw [written]
  generalize r.fields = fields at hfields
  induction fields with
  | nil => exact .nil
  | cons f fields ih =>
    obtain ⟨hf, hfields⟩ := List.nodup_cons.mp hfields
    rw [List.flatMap_cons, List.map_append]
    refine List.nodup_append.mpr ⟨?_, ih hfields, ?_⟩
    · cases values f <;> simp [Json.optional]
    · rintro name hname name' hname' rfl
      obtain ⟨m, hm, rfl⟩ := List.mem_map.mp hname
      obtain ⟨m', hm', heq⟩ := List.mem_map.mp hname'
      obtain ⟨g, hg, hm'⟩ := List.mem_flatMap.mp hm'
      have hfg : r.name f = r.name g := by
        rw [← (Json.mem_optional.mp hm).1, ← (Json.mem_optional.mp hm').1, heq]
      exact hf (hnamed.injective hfg ▸ hg)

omit [DecidableEq F] in
theorem lookup_written (hnamed : r.Named) (hfields : r.fields.Nodup) (values : F → Option Json)
    (f : F) : (r.written values).lookup (r.name f) = values f := by
  have hkeys := nodup_keys_written hnamed hfields values
  cases hvalue : values f with
  | none =>
    rw [List.lookup_eq_none_iff]
    intro m hm
    obtain ⟨g, -, hname, hg⟩ := mem_written.mp hm
    refine bne_iff_ne.mpr fun heq => ?_
    obtain rfl := hnamed.injective (heq.trans hname)
    simp [hvalue] at hg
  | some value =>
    refine (Json.lookup_eq_some_iff_mem hkeys).mpr (mem_written.mpr ⟨f, ?_, rfl, hvalue⟩)
    exact hnamed.mem_fields f

/-- **The members that are written for a record** are read back, if each value is. -/
theorem members_written (hnamed : r.Named) (hfields : r.fields.Nodup) (strict : Bool)
    {values : F → Option Json} {slots : Slots r.Value}
    (h : ∀ f, Option.Rel (fun value x => r.read f depth value.toNode = .ok x) (values f)
      (slots f)) :
    r.members strict depth (Json.memberNodes (r.written values)) none Slots.empty = .ok slots := by
  rw [members_memberNodes hnamed strict (nodup_keys_written hnamed hfields values)]
  · refine congrArg Except.ok (funext fun f => ?_)
    rw [found, lookup_written hnamed hfields]
    have hfield := h f
    generalize values f = value, slots f = slot at hfield ⊢
    cases hfield with
    | none => rfl
    | some hread =>
      rw [Option.bind_some, hread]
      rfl
  · intro f value hmem
    obtain ⟨g, -, hname, hvalue⟩ := mem_written.mp hmem
    obtain rfl := hnamed.injective hname
    have hfield := h f
    rw [hvalue] at hfield
    generalize slots f = slot at hfield
    cases hfield with
    | some hread => exact ⟨_, hread⟩

end Record

end CustomResource
