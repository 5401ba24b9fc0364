import CustomResource.Proofs.Decode.Origin
import CustomResource.Proofs.Decode.Records

/-!
# The members of an object, field by field

A record goes through the members of an object in the order of the text. What comes of it can be
said without that order: every member has to be one that can be passed over or read, and what
becomes of a field depends only on the values that are given for that field. So whatever is done to
an object that leaves these values alone goes unnoticed.

## Main definitions

* `Record.fieldMembers`: the members that are fields.
* `Record.given`: the values that are given for a field.
* `Record.Passes`: a member that is no obstacle by itself.
* `Record.take`: what becomes of a field, from the values that are given for it.
* `Json.Node.part?`: the value for a field in either form of a record.

## Main results

* `Record.members_eq_ok_iff_given`: the members of an object, field by field.
* `Record.strict_parts`: the fields of a strict record, from either of its forms.
-/

namespace CustomResource

/-- The value that a document gives for a field: that of the first member of the name, or the item
at the place. -/
def Json.Node.part? (name : String) (place : Nat) : Json.Node → Option Json.Node
  | .object members _ => (members.find? fun m => m.1.value.toOption = some name).map Prod.snd
  | .array items _ => items[place]?
  | _ => none

namespace Record

variable {F α : Type} {r : Record F α} {strict : Bool} {depth : Nat}

/-! ### The values that are given for a field -/

/-- The field that a key names. -/
def fieldOf? (r : Record F α) (key : Json.Lexeme String) : Option F :=
  key.value.toOption.bind r.find?

/-- The members that are fields, in the order of the text. -/
def fieldMembers (r : Record F α) (members : List (Json.Lexeme String × Json.Node)) :
    List (F × Json.Node) :=
  members.filterMap fun m => (r.fieldOf? m.1).map (·, m.2)

/-- A member that is no obstacle by itself: its key is a text, and unless it is a field there is
nothing to object to in its value. -/
def Passes (r : Record F α) (m : Json.Lexeme String × Json.Node) : Prop :=
  ∃ name, m.1.value = .ok name ∧ (r.find? name = none → m.2.skip = .ok ())

/-- What becomes of a field that has some value or none so far, from more values that are given for
it. None where one of them cannot be read, or is one too many for a strict record. -/
def take (r : Record F α) (strict : Bool) (depth : Nat) (f : F) :
    List Json.Node → Option (r.Value f) → Option (Option (r.Value f))
  | [], slot => some slot
  | node :: nodes, slot =>
    if strict ∧ slot.isSome then none
    else (r.read f depth node).toOption.bind fun x => r.take strict depth f nodes (some x)

theorem fieldOf?_eq_some_iff {key : Json.Lexeme String} {f : F} :
    r.fieldOf? key = some f ↔ ∃ name, key.value = .ok name ∧ r.find? name = some f := by
  rw [fieldOf?]
  cases key.value <;> simp [Except.toOption]

theorem fieldOf?_of_value {key : Json.Lexeme String} {name : String} (h : key.value = .ok name) :
    r.fieldOf? key = r.find? name := by
  rw [fieldOf?, h]
  rfl

theorem fieldMembers_cons_of_none {m : Json.Lexeme String × Json.Node}
    (h : r.fieldOf? m.1 = none) (members : List (Json.Lexeme String × Json.Node)) :
    r.fieldMembers (m :: members) = r.fieldMembers members := by
  rw [fieldMembers, List.filterMap_cons, h]
  rfl

theorem fieldMembers_cons_of_some {m : Json.Lexeme String × Json.Node} {f : F}
    (h : r.fieldOf? m.1 = some f) (members : List (Json.Lexeme String × Json.Node)) :
    r.fieldMembers (m :: members) = (f, m.2) :: r.fieldMembers members := by
  rw [fieldMembers, List.filterMap_cons, h]
  rfl

theorem take_cons_of_read {f : F} {node : Json.Node} {slot : Option (r.Value f)}
    (hslot : ¬ (strict ∧ slot.isSome)) {x : r.Value f} (hread : r.read f depth node = .ok x)
    (nodes : List Json.Node) :
    r.take strict depth f (node :: nodes) slot = r.take strict depth f nodes (some x) := by
  rw [take, if_neg hslot, hread]
  rfl

/-- A strict record takes no value of a field or one. -/
theorem take_strict_eq_some_iff {f : F} {nodes : List Json.Node} {slot : Option (r.Value f)} :
    r.take true depth f nodes none = some slot ↔
      (nodes = [] ∧ slot = none) ∨
        ∃ node x, nodes = [node] ∧ r.read f depth node = .ok x ∧ slot = some x := by
  match nodes with
  | [] => simp [take, eq_comm]
  | [node] =>
    cases hread : r.read f depth node with
    | error e => simp [take, hread, Except.toOption]
    | ok x => simp [take, hread, Except.toOption, eq_comm]
  | node :: node' :: nodes =>
    cases hread : r.read f depth node <;> simp [take, hread, Except.toOption]

variable [DecidableEq F]

/-- The values that are given for a field, in the order of the text. -/
def given (r : Record F α) (f : F) (members : List (Json.Lexeme String × Json.Node)) :
    List Json.Node :=
  ((r.fieldMembers members).filter fun x => x.1 = f).map Prod.snd

theorem given_cons_of_none {m : Json.Lexeme String × Json.Node} (h : r.fieldOf? m.1 = none) (f : F)
    (members : List (Json.Lexeme String × Json.Node)) :
    r.given f (m :: members) = r.given f members := by
  rw [given, fieldMembers_cons_of_none h, given]

theorem given_cons_self {m : Json.Lexeme String × Json.Node} {f : F} (h : r.fieldOf? m.1 = some f)
    (members : List (Json.Lexeme String × Json.Node)) :
    r.given f (m :: members) = m.2 :: r.given f members := by
  rw [given, fieldMembers_cons_of_some h, List.filter_cons_of_pos (by simp)]
  rfl

theorem given_cons_of_ne {m : Json.Lexeme String × Json.Node} {f g : F}
    (h : r.fieldOf? m.1 = some f) (hne : f ≠ g)
    (members : List (Json.Lexeme String × Json.Node)) :
    r.given g (m :: members) = r.given g members := by
  rw [given, fieldMembers_cons_of_some h, List.filter_cons_of_neg (by simpa using hne)]
  rfl

/-! ### The members of an object -/

/-- **The members of an object, field by field.** The induction is on the members. -/
theorem members_eq_ok_iff_given {members : List (Json.Lexeme String × Json.Node)}
    {stop : Option Json.Fault} {slots slots' : Slots r.Value} :
    r.members strict depth members stop slots = .ok slots' ↔
      stop = none ∧ (∀ m ∈ members, r.Passes m) ∧
        ∀ f, r.take strict depth f (r.given f members) (slots f) = some (slots' f) := by
  induction members generalizing slots with
  | nil =>
    cases stop with
    | some fault => simp [Record.members, Decoder.unlessFault]
    | none =>
      simp [Record.members, Decoder.unlessFault, given, fieldMembers, take, funext_iff]
  | cons m members ih =>
    obtain ⟨key, node⟩ := m
    rw [Record.members, List.forall_mem_cons]
    cases hkey : key.value with
    | error fault => simp [Decoder.key, hkey, Except.mapError, Passes]
    | ok name =>
      simp only [Decoder.key, hkey, Except.mapError]
      have hfield : r.fieldOf? key = r.find? name := fieldOf?_of_value hkey
      cases hfind : r.find? name with
      | none =>
        have hgiven : ∀ f, r.given f ((key, node) :: members) = r.given f members :=
          fun f => given_cons_of_none (hfield.trans hfind) f members
        cases hskip : node.skip with
        | error fault => simp [Passes, hkey, hfind, hskip]
        | ok =>
          have hpasses : r.Passes (key, node) := ⟨name, hkey, fun _ => hskip⟩
          simp only [ih, hgiven, hpasses, true_and]
      | some f =>
        have hpasses : r.Passes (key, node) := ⟨name, hkey, fun hnone => by simp [hfind] at hnone⟩
        simp only [hpasses, true_and]
        split_ifs with hslot
        · refine iff_of_false (by simp) fun h => ?_
          have hf := h.2.2 f
          rw [given_cons_self (hfield.trans hfind), take, if_pos hslot] at hf
          cases hf
        · cases hread : r.read f depth node with
          | error e =>
            refine iff_of_false (by simp) fun h => ?_
            have hf := h.2.2 f
            rw [given_cons_self (hfield.trans hfind), take, if_neg hslot, hread] at hf
            cases hf
          | ok x =>
            dsimp only
            rw [ih]
            refine and_congr_right' (and_congr_right' (forall_congr' fun g => ?_))
            by_cases hg : f = g
            · subst hg
              rw [given_cons_self (hfield.trans hfind), take_cons_of_read hslot hread, Slots.set,
                dif_pos rfl]
            · rw [given_cons_of_ne (hfield.trans hfind) hg, Slots.set, dif_neg hg]

/-! ### Both forms of a strict record -/

/-- The value that is given for a field is the first member that names it. -/
theorem find?_eq_head?_given (hnamed : r.Named) (f : F)
    (members : List (Json.Lexeme String × Json.Node)) :
    (members.find? fun m => m.1.value.toOption = some (r.name f)).map Prod.snd =
      (r.given f members).head? := by
  induction members with
  | nil => rfl
  | cons m members ih =>
    by_cases hname : m.1.value.toOption = some (r.name f)
    · have hfield : r.fieldOf? m.1 = some f := by rw [fieldOf?, hname, Option.bind_some, hnamed f]
      rw [List.find?_cons_of_pos (by simpa using hname), given_cons_self hfield]
      rfl
    · rw [List.find?_cons_of_neg (by simpa using hname), ih]
      cases hfield : r.fieldOf? m.1 with
      | none => rw [given_cons_of_none hfield]
      | some g =>
        have hne : g ≠ f := by
          rintro rfl
          obtain ⟨name, hvalue, hfind⟩ := fieldOf?_eq_some_iff.mp hfield
          rw [hvalue, name_of_find? hfind] at hname
          exact hname rfl
        rw [given_cons_of_ne hfield hne]

/-- The fields that are read from an array are read from the items at their places. The induction is
on the fields, in step with the items. -/
theorem items_parts {fields : List F} (hfields : fields.Nodup) {count : Nat}
    {nodes rest : List Json.Node} {stop : Option Json.Fault} {slots slots' : Slots r.Value}
    (h : r.items depth fields count nodes stop slots = .ok (slots', rest)) :
    (∀ f ∉ fields, slots' f = slots f) ∧
      ∀ f ∈ fields, slots f = none →
        Option.Rel (fun node x => r.read f depth node = .ok x) nodes[fields.idxOf f]?
          (slots' f) := by
  induction fields generalizing count nodes slots with
  | nil =>
    obtain ⟨rfl, -⟩ := Prod.mk.inj (Except.ok.inj h)
    exact ⟨fun _ _ => rfl, nofun⟩
  | cons g fields ih =>
    obtain ⟨hg, hfields⟩ := List.nodup_cons.mp hfields
    cases nodes with
    | nil =>
      cases stop with
      | some fault => simp [Record.items] at h
      | none =>
        rw [Record.items] at h
        split_ifs at h
        obtain ⟨hothers, hparts⟩ := ih hfields h
        refine ⟨fun f hf => hothers f (List.not_mem_of_not_mem_cons hf), fun f hf hslot => ?_⟩
        obtain rfl | hf := List.mem_cons.mp hf
        · rw [hothers f hg, hslot]
          exact .none
        · simpa using hparts f hf hslot
    | cons node nodes =>
      rw [Record.items] at h
      split at h
      · cases h
      · next value hvalue =>
        obtain ⟨hothers, hparts⟩ := ih hfields h
        refine ⟨fun f hf => ?_, fun f hf hslot => ?_⟩
        · have hne : g ≠ f := fun heq => hf (heq ▸ List.mem_cons_self)
          rw [hothers f (List.not_mem_of_not_mem_cons hf), Slots.set, dif_neg hne]
        · by_cases hne : g = f
          · subst hne
            rw [List.idxOf_cons_self, hothers g hg, Slots.set, dif_pos rfl]
            exact .some hvalue
          · have hmem : f ∈ fields := (List.mem_cons.mp hf).resolve_left (Ne.symm hne)
            rw [List.idxOf_cons_ne _ hne]
            refine hparts f hmem ?_
            rw [Slots.set, dif_neg hne, hslot]

/-- **The fields of a strict record** are read from the parts of the document: from the members of
their names, or from the items at their places. -/
theorem strict_parts (hnamed : r.Named) (hfields : r.fields.Nodup) {node : Json.Node} {a : α}
    (h : r.strict depth node = .ok a) :
    ∃ left slots, Decoder.descend depth = .ok left ∧ r.build slots = .ok a ∧
      ∀ f, Option.Rel (fun part x => r.read f left part = .ok x)
        (node.part? (r.name f) (r.fields.idxOf f)) (slots f) := by
  cases node with
  | object members stop =>
    obtain ⟨left, slots, hdepth, hmembers, hbuild⟩ := strict_object_eq_ok_iff.mp h
    obtain ⟨-, -, htaken⟩ := members_eq_ok_iff_given.mp hmembers
    refine ⟨left, slots, hdepth, hbuild, fun f => ?_⟩
    rw [Json.Node.part?, find?_eq_head?_given hnamed]
    obtain ⟨hgiven, hslot⟩ | ⟨part, x, hgiven, hread, hslot⟩ :=
      take_strict_eq_some_iff.mp (htaken f)
    · rw [hgiven, hslot]
      exact .none
    · rw [hgiven, hslot]
      exact .some hread
  | array nodes stop =>
    obtain ⟨left, slots, rest, hdepth, hitems, hbuild⟩ := exists_items_of_strict_array h
    exact ⟨left, slots, hdepth, hbuild, fun f =>
      (items_parts hfields hitems).2 f (hnamed.mem_fields f) rfl⟩
  | _ => simp [strict] at h

end Record

end CustomResource
