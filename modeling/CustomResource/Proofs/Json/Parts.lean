import CustomResource.Json.Reader

/-!
# Parts of JSON values

What holds of a value together with all that it consists of, the document of a value, and the
members of an object by their names.

## Main definitions

* `Json.all`: a property of a value and all its parts.
* `Json.hasDistinctKeys`: a value in which no object has two members of one name.

## Main results

* `Json.skip_toNode`: there is nothing to object to in the document of a value.
* `Json.lookup_eq_some_iff_mem`: where no key occurs twice, exactly the members are found.
-/

namespace CustomResource

namespace Json

/-! ### The document of a value -/

mutual

/-- There is nothing to object to in the document of a value. -/
theorem skip_toNode : (value : Json) → value.toNode.skip = .ok ()
  | .null => rfl
  | .bool _ => rfl
  | .number _ => rfl
  | .string _ => rfl
  | .array items => by rw [toNode, Node.skip, skip_itemNodes]
  | .object members => by rw [toNode, Node.skip, skip_memberNodes]

theorem skip_itemNodes : (items : List Json) → Node.skipItems (itemNodes items) none = .ok ()
  | [] => rfl
  | item :: items => by rw [itemNodes, Node.skipItems, skip_toNode, skip_itemNodes]

theorem skip_memberNodes : (members : List (String × Json)) →
    Node.skipMembers (memberNodes members) none = .ok ()
  | [] => rfl
  | (key, value) :: members => by
    rw [memberNodes, Node.skipMembers, skip_toNode, skip_memberNodes]
    rfl

end

/-! ### Members by their names -/

/-- Where no key occurs twice, exactly the members are found. -/
theorem lookup_eq_some_iff_mem {α : Type} {members : List (String × α)}
    (h : (members.map Prod.fst).Nodup) {key : String} {value : α} :
    members.lookup key = some value ↔ (key, value) ∈ members := by
  induction members with
  | nil => simp
  | cons m members ih =>
    obtain ⟨name, value'⟩ := m
    obtain ⟨hname, hrest⟩ := List.nodup_cons.mp h
    rw [List.lookup_cons, List.mem_cons, ← ih hrest]
    by_cases heq : key = name
    · subst heq
      have hnone : members.lookup key ≠ some value := fun hm =>
        hname (List.mem_map.mpr ⟨_, (ih hrest).mp hm, rfl⟩)
      simp [hnone, eq_comm]
    · simp [heq, beq_eq_false_iff_ne.mpr heq]

theorem lookup_optional (name key : String) (value : Option Json) :
    (optional key value).lookup name = if name = key then value else none := by
  cases value with
  | none => exact (ite_self _).symm
  | some value =>
    rw [optional, List.lookup_cons, List.lookup_nil]
    by_cases h : name = key
    · simp [h]
    · simp [h, beq_eq_false_iff_ne.mpr h]

theorem mem_optional {key : String} {value : Option Json} {m : String × Json} :
    m ∈ optional key value ↔ m.1 = key ∧ value = some m.2 := by
  obtain ⟨name, value'⟩ := m
  cases value with
  | none => simp [optional]
  | some value => simp [optional, eq_comm]

/-! ### What holds of all parts -/

mutual

/-- Whether something holds of a value and of all its parts. -/
def all (p : Json → Bool) : Json → Bool
  | .null => p .null
  | .bool b => p (.bool b)
  | .number n => p (.number n)
  | .string s => p (.string s)
  | .array items => p (.array items) && allItems p items
  | .object members => p (.object members) && allMembers p members

/-- Whether something holds of the items of an array and of all their parts. -/
def allItems (p : Json → Bool) : List Json → Bool
  | [] => true
  | item :: items => item.all p && allItems p items

/-- Whether something holds of the values of an object and of all their parts. -/
def allMembers (p : Json → Bool) : List (String × Json) → Bool
  | [] => true
  | (_, value) :: members => value.all p && allMembers p members

end

variable {p : Json → Bool}

theorem allItems_iff {items : List Json} :
    allItems p items = true ↔ ∀ item ∈ items, item.all p = true := by
  induction items with
  | nil => simp [allItems]
  | cons item items ih => rw [allItems, Bool.and_eq_true, ih, List.forall_mem_cons]

theorem allMembers_iff {members : List (String × Json)} :
    allMembers p members = true ↔ ∀ m ∈ members, m.2.all p = true := by
  induction members with
  | nil => simp [allMembers]
  | cons m members ih => rw [allMembers, Bool.and_eq_true, ih, List.forall_mem_cons]

theorem all_array {items : List Json} : (array items).all p = true ↔
    p (.array items) = true ∧ ∀ item ∈ items, item.all p = true := by
  rw [all, Bool.and_eq_true, allItems_iff]

theorem all_object {members : List (String × Json)} : (object members).all p = true ↔
    p (.object members) = true ∧ ∀ m ∈ members, m.2.all p = true := by
  rw [all, Bool.and_eq_true, allMembers_iff]

/-! ### Values without repeated keys -/

/-- Whether no object in a value has two members of one name. -/
def hasDistinctKeys (v : Json) : Bool :=
  v.all fun
    | .object members => decide (members.map Prod.fst).Nodup
    | _ => true

theorem hasDistinctKeys_object {members : List (String × Json)} :
    (object members).hasDistinctKeys = true ↔
      (members.map Prod.fst).Nodup ∧ ∀ m ∈ members, m.2.hasDistinctKeys = true := by
  rw [hasDistinctKeys, all_object, decide_eq_true_iff]
  rfl

end Json

end CustomResource
