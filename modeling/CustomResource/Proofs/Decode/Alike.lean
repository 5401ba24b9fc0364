import CustomResource.Proofs.Decode.Members
import Mathlib.Data.List.Permutation

/-!
# Documents that are alike for a reader

The members of an object may come in any order, and among them may be some that no one asks for. Two
documents that differ in nothing but that, at any place where a record is expected, are alike for
the readers of records: what is read from one of them is read from the other. Without repeated keys
no more has to be said about the order, since then no value hides another one.

Which places these are is said by a relation for each field of a record. It is built in step with
the decoders: equality for what is read as a whole, and the relations below for lists and records.

## Main definitions

* `Json.Node.WellFormed`: a value of a document without any fault of the text.
* `Json.Node.hasDistinctKeys`: a value of a document in which no object has two members of one name.
* `Json.Node.ItemsAlike`, `Record.Alike`: arrays and objects that are alike.
* `Decoder.Respects`: a decoder reads the same from documents that are alike.

## Main results

* `Record.Alike.of_perm`, `of_insert`, `of_erase`, `trans`: what may be done to an object.
* `Decoder.Respects.optional`, `Respects.list`: values that may be null, and lists.
* `Record.respects_strict`, `respects_lenient`: records respect what their fields respect.
-/

namespace CustomResource

/-! ### Documents -/

namespace Json.Node

/-- A value of a document without any fault of the text. Strings and numbers need no value, as long
as they are spelt as such. -/
inductive WellFormed : Json.Node → Prop
  | null : WellFormed .null
  | bool (b : Bool) : WellFormed (.bool b)
  | number {lexeme : Lexeme Number} (h : lexeme.broken = none) : WellFormed (.number lexeme)
  | string {lexeme : Lexeme String} (h : lexeme.broken = none) : WellFormed (.string lexeme)
  | array {items : List Json.Node} (h : ∀ item ∈ items, WellFormed item) :
    WellFormed (.array items none)
  | object {members : List (Lexeme String × Json.Node)} (hkeys : ∀ m ∈ members, m.1.broken = none)
    (h : ∀ m ∈ members, WellFormed m.2) : WellFormed (.object members none)

theorem skipItems_of_forall {items : List Json.Node} (h : ∀ item ∈ items, item.skip = .ok ()) :
    skipItems items none = .ok () := by
  induction items with
  | nil => rfl
  | cons item items ih =>
    obtain ⟨hitem, hrest⟩ := List.forall_mem_cons.mp h
    rw [skipItems, hitem, ih hrest]

theorem skipMembers_of_forall {members : List (Lexeme String × Json.Node)}
    (hkeys : ∀ m ∈ members, m.1.broken = none) (h : ∀ m ∈ members, m.2.skip = .ok ()) :
    skipMembers members none = .ok () := by
  induction members with
  | nil => rfl
  | cons m members ih =>
    obtain ⟨hkey, hkeys⟩ := List.forall_mem_cons.mp hkeys
    obtain ⟨hvalue, hrest⟩ := List.forall_mem_cons.mp h
    rw [skipMembers, hkey, hvalue, ih hkeys hrest]

/-- What is well formed can be passed over. -/
theorem WellFormed.skip_eq_ok {node : Json.Node} (h : node.WellFormed) : node.skip = .ok () := by
  induction h with
  | null => rfl
  | bool b => rfl
  | number h => rw [skip, h]
  | string h => rw [skip, h]
  | array _ ih => rw [skip, skipItems_of_forall ih]
  | object hkeys _ ih => rw [skip, skipMembers_of_forall hkeys ih]

mutual

/-- Only what is well formed can be passed over. -/
theorem wellFormed_of_skip : (node : Json.Node) → node.skip = .ok () → node.WellFormed
  | .broken _, h => nomatch h
  | .misspelt _, h => nomatch h
  | .null, _ => .null
  | .bool b, _ => .bool b
  | .number lexeme, h => by
    rw [skip] at h
    cases hbroken : lexeme.broken with
    | none => exact .number hbroken
    | some f => simp [hbroken] at h
  | .string lexeme, h => by
    rw [skip] at h
    cases hbroken : lexeme.broken with
    | none => exact .string hbroken
    | some f => simp [hbroken] at h
  | .array items stop, h => by
    obtain ⟨rfl, hitems⟩ := wellFormed_of_skipItems items stop h
    exact .array hitems
  | .object members stop, h => by
    obtain ⟨rfl, hkeys, hvalues⟩ := wellFormed_of_skipMembers members stop h
    exact .object hkeys hvalues

theorem wellFormed_of_skipItems : (items : List Json.Node) → (stop : Option Fault) →
    skipItems items stop = .ok () → stop = none ∧ ∀ item ∈ items, item.WellFormed
  | [], none, _ => ⟨rfl, nofun⟩
  | [], some _, h => nomatch h
  | item :: items, stop, h => by
    rw [skipItems] at h
    cases hitem : item.skip with
    | error f => simp [hitem] at h
    | ok =>
      simp only [hitem] at h
      obtain ⟨hstop, hitems⟩ := wellFormed_of_skipItems items stop h
      exact ⟨hstop, List.forall_mem_cons.mpr ⟨wellFormed_of_skip item hitem, hitems⟩⟩

theorem wellFormed_of_skipMembers : (members : List (Lexeme String × Json.Node)) →
    (stop : Option Fault) → skipMembers members stop = .ok () →
    stop = none ∧ (∀ m ∈ members, m.1.broken = none) ∧ ∀ m ∈ members, m.2.WellFormed
  | [], none, _ => ⟨rfl, nofun, nofun⟩
  | [], some _, h => nomatch h
  | (key, value) :: members, stop, h => by
    rw [skipMembers] at h
    cases hkey : key.broken with
    | some f => simp [hkey] at h
    | none =>
      cases hvalue : value.skip with
      | error f => simp [hkey, hvalue] at h
      | ok =>
        simp only [hkey, hvalue] at h
        obtain ⟨hstop, hkeys, hvalues⟩ := wellFormed_of_skipMembers members stop h
        exact ⟨hstop, List.forall_mem_cons.mpr ⟨hkey, hkeys⟩,
          List.forall_mem_cons.mpr ⟨wellFormed_of_skip value hvalue, hvalues⟩⟩

end

/-- **What can be passed over** is what is well formed. -/
theorem skip_eq_ok_iff {node : Json.Node} : node.skip = .ok () ↔ node.WellFormed :=
  ⟨wellFormed_of_skip node, WellFormed.skip_eq_ok⟩

mutual

/-- Whether no object in a value of a document has two members of one name. -/
def hasDistinctKeys : Json.Node → Bool
  | .array items _ => itemsHaveDistinctKeys items
  | .object members _ =>
    decide (members.filterMap fun m => m.1.value.toOption).Nodup && membersHaveDistinctKeys members
  | _ => true

/-- `hasDistinctKeys` for the items of an array. -/
def itemsHaveDistinctKeys : List Json.Node → Bool
  | [] => true
  | item :: items => item.hasDistinctKeys && itemsHaveDistinctKeys items

/-- `hasDistinctKeys` for the values of an object. -/
def membersHaveDistinctKeys : List (Lexeme String × Json.Node) → Bool
  | [] => true
  | (_, value) :: members => value.hasDistinctKeys && membersHaveDistinctKeys members

end

theorem itemsHaveDistinctKeys_iff {items : List Json.Node} :
    itemsHaveDistinctKeys items = true ↔ ∀ item ∈ items, item.hasDistinctKeys = true := by
  induction items with
  | nil => simp [itemsHaveDistinctKeys]
  | cons item items ih =>
    rw [itemsHaveDistinctKeys, Bool.and_eq_true, ih, List.forall_mem_cons]

theorem membersHaveDistinctKeys_iff {members : List (Lexeme String × Json.Node)} :
    membersHaveDistinctKeys members = true ↔ ∀ m ∈ members, m.2.hasDistinctKeys = true := by
  induction members with
  | nil => simp [membersHaveDistinctKeys]
  | cons m members ih =>
    rw [membersHaveDistinctKeys, Bool.and_eq_true, ih, List.forall_mem_cons]

theorem hasDistinctKeys_object {members : List (Lexeme String × Json.Node)} {stop : Option Fault} :
    (Node.object members stop).hasDistinctKeys = true ↔
      (members.filterMap fun m => m.1.value.toOption).Nodup ∧
        ∀ m ∈ members, m.2.hasDistinctKeys = true := by
  rw [hasDistinctKeys, Bool.and_eq_true, decide_eq_true_iff, membersHaveDistinctKeys_iff]

theorem forall₂_trans {β : Type} {S : β → β → Prop} (htrans : ∀ a b c, S a b → S b c → S a c)
    {xs ys zs : List β} (h : List.Forall₂ S xs ys) (h' : List.Forall₂ S ys zs) :
    List.Forall₂ S xs zs := by
  induction h generalizing zs with
  | nil => exact h'
  | cons hxy _ ih =>
    cases h' with
    | cons hyz hrest => exact .cons (htrans _ _ _ hxy hyz) (ih hrest)

/-- Arrays whose items are alike, or any one value. -/
inductive ItemsAlike (R : Json.Node → Json.Node → Prop) : Json.Node → Json.Node → Prop
  | same (node : Json.Node) : ItemsAlike R node node
  | array {items items' : List Json.Node} {stop : Option Fault} (h : List.Forall₂ R items items') :
    ItemsAlike R (.array items stop) (.array items' stop)

theorem ItemsAlike.trans {R : Json.Node → Json.Node → Prop}
    (htrans : ∀ a b c, R a b → R b c → R a c) {node node' node'' : Json.Node}
    (h : ItemsAlike R node node') (h' : ItemsAlike R node' node'') : ItemsAlike R node node'' := by
  cases h with
  | same => exact h'
  | array hitems =>
    cases h' with
    | same => exact .array hitems
    | array hitems' => exact .array (forall₂_trans htrans hitems hitems')

end Json.Node

/-- A member that is a field of a record, or else has a name and a well-formed value. -/
def Record.Harmless {F α : Type} (r : Record F α) (m : Json.Lexeme String × Json.Node) : Prop :=
  r.fieldOf? m.1 = none → (∃ name, m.1.value = .ok name) ∧ m.2.WellFormed

/-- Objects of a record that are alike, or any one value. The members that are fields are the same
up to their order, with values that are alike field by field. All others may come and go, anywhere
among them, if those that come have names and well-formed values. -/
inductive Record.Alike {F α : Type} (r : Record F α) (R : F → Json.Node → Json.Node → Prop) :
    Json.Node → Json.Node → Prop
  | same (node : Json.Node) : Alike r R node node
  | object {members members' : List (Json.Lexeme String × Json.Node)}
    {moved : List (F × Json.Node)} (hmoved : (r.fieldMembers members).Perm moved)
    (hfields : List.Forall₂ (fun x y => x.1 = y.1 ∧ R x.1 x.2 y.2) moved (r.fieldMembers members'))
    (hothers : ∀ m ∈ members', m ∈ members ∨ r.Harmless m) :
    Alike r R (.object members none) (.object members' none)

/-- From documents that are alike, and have no repeated keys, a decoder reads the same. A null is
alike only to itself. -/
structure Decoder.Respects {α : Type} (R : Json.Node → Json.Node → Prop) (decode : Decoder α) :
    Prop where
  read {depth : Nat} {node node' : Json.Node} {a : α} (hkeys : node.hasDistinctKeys = true)
    (halike : R node node') (h : decode depth node = .ok a) : decode depth node' = .ok a
  null {node node' : Json.Node} (halike : R node node') : node = .null ↔ node' = .null

namespace Decoder

variable {α : Type} {decode : Decoder α} {R : Json.Node → Json.Node → Prop}

/-! ### Values and lists -/

/-- Any decoder reads the same from the same document. -/
theorem respects_eq (decode : Decoder α) : decode.Respects Eq where
  read _ halike h := halike ▸ h
  null halike := halike ▸ Iff.rfl

theorem Respects.optional (h : decode.Respects R) : (optional decode).Respects R where
  read {depth node node' x} hkeys halike hread := by
    obtain ⟨rfl, rfl⟩ | ⟨a, hne, hvalue, rfl⟩ := optional_eq_ok hread
    · obtain rfl := (h.null halike).mp rfl
      rfl
    · have hne' : node' ≠ .null := fun heq => hne ((h.null halike).mpr heq)
      rw [Decoder.optional, h.read hkeys halike hvalue]
      · rfl
      · exact hne'
  null := h.null

theorem Respects.items (h : decode.Respects R) {nodes nodes' : List Json.Node}
    (halike : List.Forall₂ R nodes nodes') (hkeys : ∀ node ∈ nodes, node.hasDistinctKeys = true)
    {depth : Nat} {stop : Option Json.Fault} {result : List α}
    (hread : Decoder.items decode depth nodes stop = .ok result) :
    Decoder.items decode depth nodes' stop = .ok result := by
  induction halike generalizing result with
  | nil => exact hread
  | @cons node node' nodes nodes' hnode _ ih =>
    obtain ⟨hfirst, hothers⟩ := List.forall_mem_cons.mp hkeys
    rw [Decoder.items] at hread ⊢
    cases hitem : decode depth node with
    | error e => simp [hitem, bind, Except.bind] at hread
    | ok item =>
      cases hrest : Decoder.items decode depth nodes stop with
      | error e => simp [hitem, hrest, bind, Except.bind] at hread
      | ok rest =>
        rw [hitem, hrest] at hread
        rw [h.read hfirst hnode hitem, ih hothers hrest]
        exact hread

theorem Respects.list (h : decode.Respects R) :
    (list decode).Respects (Json.Node.ItemsAlike R) where
  read {depth node node' result} hkeys halike hread := by
    cases halike with
    | same => exact hread
    | @array nodes nodes' stop halike =>
      rw [Decoder.list] at hread ⊢
      cases hdepth : descend depth with
      | error e => simp [hdepth, bind, Except.bind] at hread
      | ok left =>
        simp only [hdepth, bind, Except.bind] at hread ⊢
        exact h.items halike (Json.Node.itemsHaveDistinctKeys_iff.mp hkeys) hread
  null halike := by
    cases halike with
    | same => exact Iff.rfl
    | array => simp

end Decoder

/-! ### Records -/

namespace Record

variable {F α : Type} {r : Record F α} {R : F → Json.Node → Json.Node → Prop}

/-- A null is alike only to itself. -/
theorem Alike.null {node node' : Json.Node} (h : r.Alike R node node') :
    node = .null ↔ node' = .null := by
  cases h with
  | same => exact Iff.rfl
  | object => simp

/-- The members that are no obstacle are the harmless ones. -/
theorem passes_iff_harmless {m : Json.Lexeme String × Json.Node} :
    r.Passes m ↔ r.Harmless m := by
  constructor
  · rintro ⟨name, hname, hskip⟩ hfield
    rw [fieldOf?_of_value hname] at hfield
    exact ⟨⟨name, hname⟩, Json.Node.skip_eq_ok_iff.mp (hskip hfield)⟩
  · intro h
    cases hfield : r.fieldOf? m.1 with
    | none =>
      obtain ⟨⟨name, hname⟩, hvalue⟩ := h hfield
      exact ⟨name, hname, fun _ => hvalue.skip_eq_ok⟩
    | some f =>
      obtain ⟨name, hname, hfind⟩ := fieldOf?_eq_some_iff.mp hfield
      exact ⟨name, hname, fun hnone => by simp [hfind] at hnone⟩

/-! ### What may be done to an object -/

theorem fieldMembers_middle {m : Json.Lexeme String × Json.Node} (hfield : r.fieldOf? m.1 = none)
    (before after : List (Json.Lexeme String × Json.Node)) :
    r.fieldMembers (before ++ m :: after) = r.fieldMembers (before ++ after) := by
  rw [fieldMembers, List.filterMap_append, List.filterMap_cons, hfield, fieldMembers,
    List.filterMap_append]
  rfl

section Changes

variable (hsame : ∀ f node, R f node node)

include hsame

theorem forall₂_same (members : List (F × Json.Node)) :
    List.Forall₂ (fun x y => x.1 = y.1 ∧ R x.1 x.2 y.2) members members :=
  List.forall₂_same.mpr fun x _ => ⟨rfl, hsame x.1 x.2⟩

/-- The members of an object may be put into another order. -/
theorem Alike.of_perm {members members' : List (Json.Lexeme String × Json.Node)}
    (h : members.Perm members') : r.Alike R (.object members none) (.object members' none) :=
  .object (h.filterMap _) (forall₂_same hsame _) fun _ hm => .inl (h.mem_iff.mpr hm)

/-- A member that is no field may be taken away. -/
theorem Alike.of_erase {m : Json.Lexeme String × Json.Node} (hfield : r.fieldOf? m.1 = none)
    (before after : List (Json.Lexeme String × Json.Node)) :
    r.Alike R (.object (before ++ m :: after) none) (.object (before ++ after) none) := by
  have hfields := fieldMembers_middle hfield before after
  refine .object (hfields ▸ .refl _) (forall₂_same hsame _) fun m hm => .inl ?_
  exact (List.sublist_cons_self _ after).append_left before |>.subset hm

/-- A member that is no field may be put in, if it has a name and a well-formed value. -/
theorem Alike.of_insert {m : Json.Lexeme String × Json.Node} (hfield : r.fieldOf? m.1 = none)
    (hm : r.Harmless m) (before after : List (Json.Lexeme String × Json.Node)) :
    r.Alike R (.object (before ++ after) none) (.object (before ++ m :: after) none) := by
  have hfields := fieldMembers_middle hfield before after
  refine .object (hfields ▸ .refl _) (forall₂_same hsame _) fun m' hm' => ?_
  obtain rfl | hmem := List.mem_cons.mp (List.perm_middle.mem_iff.mp hm')
  · exact .inr hm
  · exact .inl hmem

end Changes

/-- Changes may be made one after the other. -/
theorem Alike.trans (htrans : ∀ f a b c, R f a b → R f b c → R f a c)
    {node node' node'' : Json.Node} (h : r.Alike R node node') (h' : r.Alike R node' node'') :
    r.Alike R node node'' := by
  cases h with
  | same => exact h'
  | @object members members' moved hmoved hfields hothers =>
    cases h' with
    | same => exact .object hmoved hfields hothers
    | @object _ members'' moved' hmoved' hfields' hothers' =>
      -- the second change of the order is made before the values are replaced
      have hcomp : Relation.Comp (List.Forall₂ _) List.Perm moved moved' := ⟨_, hfields, hmoved'⟩
      rw [List.forall₂_comp_perm_eq_perm_comp_forall₂] at hcomp
      obtain ⟨both, hboth, hvalues⟩ := hcomp
      refine .object (hmoved.trans hboth) (Json.Node.forall₂_trans ?_ hvalues hfields')
        fun m hm => (hothers' m hm).elim (hothers m) .inr
      rintro x y z ⟨hfield, hvalue⟩ ⟨hfield', hvalue'⟩
      exact ⟨hfield.trans hfield', htrans _ _ _ _ hvalue (hfield ▸ hvalue')⟩

/-- `Alike.trans` where all values are left as they are. -/
theorem Alike.trans_eq {node node' node'' : Json.Node} (h : r.Alike (fun _ => Eq) node node')
    (h' : r.Alike (fun _ => Eq) node' node'') : r.Alike (fun _ => Eq) node node'' :=
  Alike.trans (R := fun _ => Eq) (fun _ _ _ _ => Eq.trans) h h'

/-! ### What is read of an object -/

theorem map_fst_fieldMembers (members : List (Json.Lexeme String × Json.Node)) :
    (r.fieldMembers members).map Prod.fst =
      (members.filterMap fun m => m.1.value.toOption).filterMap r.find? := by
  rw [fieldMembers, List.map_filterMap, List.filterMap_filterMap]
  simp [fieldOf?, Option.map_map, Function.comp_def]

/-- Without repeated keys no field is given twice. -/
theorem nodup_fieldMembers {members : List (Json.Lexeme String × Json.Node)}
    (h : (members.filterMap fun m => m.1.value.toOption).Nodup) :
    ((r.fieldMembers members).map Prod.fst).Nodup := by
  rw [map_fst_fieldMembers]
  refine h.filterMap fun name name' f hname hname' => ?_
  exact (name_of_find? hname).symm.trans (name_of_find? hname')

/-- What becomes of a field from values that are alike. -/
theorem take_of_forall₂ {strict : Bool} {depth : Nat} {f : F}
    (hrespects : (r.read f).Respects (R f)) {nodes nodes' : List Json.Node}
    (halike : List.Forall₂ (R f) nodes nodes')
    (hkeys : ∀ node ∈ nodes, node.hasDistinctKeys = true) {slot slot' : Option (r.Value f)}
    (h : r.take strict depth f nodes slot = some slot') :
    r.take strict depth f nodes' slot = some slot' := by
  induction halike generalizing slot with
  | nil => exact h
  | @cons node node' nodes nodes' hnode _ ih =>
    obtain ⟨hfirst, hothers⟩ := List.forall_mem_cons.mp hkeys
    rw [take] at h
    split_ifs at h with hslot
    obtain ⟨x, hread, hrest⟩ := Option.bind_eq_some_iff.mp h
    cases hvalue : r.read f depth node with
    | error e => simp [hvalue, Except.toOption] at hread
    | ok x' =>
      obtain rfl : x' = x := by simpa [hvalue, Except.toOption] using hread
      rw [take_cons_of_read hslot (hrespects.read hfirst hnode hvalue)]
      exact ih hothers hrest

variable [DecidableEq F]

/-- Without repeated keys the order of the members is of no account for a field: there is at most
one of it. -/
theorem filter_eq_of_perm {given moved : List (F × Json.Node)} (h : given.Perm moved)
    (hfields : (given.map Prod.fst).Nodup) (f : F) :
    given.filter (fun x => x.1 = f) = moved.filter fun x => x.1 = f := by
  have hperm := h.filter fun x => decide (x.1 = f)
  have hsame : (given.filter fun x => x.1 = f).map Prod.fst =
      List.replicate (given.filter fun x => x.1 = f).length f := by
    refine List.eq_replicate_iff.mpr ⟨List.length_map _, fun g hg => ?_⟩
    obtain ⟨x, hx, rfl⟩ := List.mem_map.mp hg
    exact of_decide_eq_true (List.mem_filter.mp hx).2
  have hshort := List.nodup_replicate.mp
    (hsame ▸ hfields.sublist (List.filter_sublist.map Prod.fst))
  generalize given.filter (fun x => x.1 = f) = one at hperm hshort ⊢
  match one, hshort with
  | [], _ => exact hperm.nil_eq
  | [x], _ => exact List.singleton_perm.mp hperm

theorem forall₂_map_filter {xs ys : List (F × Json.Node)}
    (h : List.Forall₂ (fun x y => x.1 = y.1 ∧ R x.1 x.2 y.2) xs ys) (f : F) :
    List.Forall₂ (R f) ((xs.filter fun x => x.1 = f).map Prod.snd)
      ((ys.filter fun y => y.1 = f).map Prod.snd) := by
  induction h with
  | nil => exact .nil
  | @cons x y xs ys hxy _ ih =>
    obtain ⟨hfield, hvalue⟩ := hxy
    by_cases hf : x.1 = f
    · subst hf
      rw [List.filter_cons_of_pos (by simp), List.filter_cons_of_pos (by simp [hfield])]
      exact .cons hvalue ih
    · rw [List.filter_cons_of_neg (by simp [hf]), List.filter_cons_of_neg (by simp [← hfield, hf])]
      exact ih

/-- The values that are given for a field in objects that are alike. -/
theorem forall₂_given {members members' : List (Json.Lexeme String × Json.Node)}
    {moved : List (F × Json.Node)} (hmoved : (r.fieldMembers members).Perm moved)
    (hfields : List.Forall₂ (fun x y => x.1 = y.1 ∧ R x.1 x.2 y.2) moved (r.fieldMembers members'))
    (hkeys : (members.filterMap fun m => m.1.value.toOption).Nodup) (f : F) :
    List.Forall₂ (R f) (r.given f members) (r.given f members') := by
  rw [given, given, filter_eq_of_perm hmoved (nodup_fieldMembers hkeys)]
  exact forall₂_map_filter hfields f

theorem exists_mem_of_mem_given {f : F} {members : List (Json.Lexeme String × Json.Node)}
    {node : Json.Node} (h : node ∈ r.given f members) : ∃ m ∈ members, m.2 = node := by
  obtain ⟨x, hx, rfl⟩ := List.mem_map.mp h
  obtain ⟨m, hm, hfield⟩ := List.mem_filterMap.mp (List.mem_filter.mp hx).1
  obtain ⟨g, -, rfl⟩ := Option.map_eq_some_iff.mp hfield
  exact ⟨m, hm, rfl⟩

/-- **From objects that are alike the same fields are read.** -/
theorem members_of_alike (hrespects : ∀ f, (r.read f).Respects (R f)) {strict : Bool}
    {depth : Nat} {members members' : List (Json.Lexeme String × Json.Node)}
    {slots : Slots r.Value}
    (halike : r.Alike R (.object members none) (.object members' none))
    (hkeys : (Json.Node.object members none).hasDistinctKeys = true)
    (h : r.members strict depth members none Slots.empty = .ok slots) :
    r.members strict depth members' none Slots.empty = .ok slots := by
  cases halike with
  | same => exact h
  | object hmoved hfields hothers =>
    obtain ⟨hnames, hvalues⟩ := Json.Node.hasDistinctKeys_object.mp hkeys
    obtain ⟨-, hpasses, htaken⟩ := members_eq_ok_iff_given.mp h
    refine members_eq_ok_iff_given.mpr ⟨rfl, fun m hm => ?_, fun f => ?_⟩
    · exact (hothers m hm).elim (hpasses m) passes_iff_harmless.mpr
    · refine take_of_forall₂ (hrespects f) (forall₂_given hmoved hfields hnames f) ?_ (htaken f)
      intro node hnode
      obtain ⟨m, hm, rfl⟩ := exists_mem_of_mem_given hnode
      exact hvalues m hm

/-- **Strict records respect** what their fields respect. -/
theorem respects_strict (hrespects : ∀ f, (r.read f).Respects (R f)) :
    r.strict.Respects (r.Alike R) where
  read {depth node node' a} hkeys halike hread := by
    cases id halike with
    | same => exact hread
    | object =>
      obtain ⟨left, slots, hdepth, hmembers, hbuild⟩ := strict_object_eq_ok_iff.mp hread
      exact strict_object_eq_ok_iff.mpr
        ⟨left, slots, hdepth, members_of_alike hrespects halike hkeys hmembers, hbuild⟩
  null := Alike.null

/-- **All other records** do so, too. -/
theorem respects_lenient (hrespects : ∀ f, (r.read f).Respects (R f)) :
    r.lenient.Respects (r.Alike R) where
  read {depth node node' a} hkeys halike hread := by
    cases id halike with
    | same => exact hread
    | object =>
      obtain ⟨left, slots, hdepth, hmembers, hbuild⟩ := lenient_object_eq_ok_iff.mp hread
      exact lenient_object_eq_ok_iff.mpr
        ⟨left, slots, hdepth, members_of_alike hrespects halike hkeys hmembers, hbuild⟩
  null := Alike.null

end Record

end CustomResource
