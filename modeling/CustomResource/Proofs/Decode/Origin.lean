import CustomResource.Decode.Record
import CustomResource.Proofs.Json.Order
import CustomResource.Proofs.Json.Ranges

/-!
# Where decoded values come from

If a decoder accepts a document, whatever is in its result has been read from a value that stands in
the document: the items of a list, the values of a map, the fields of a record. Here the decoders
are taken apart accordingly.

## Main results

* `Decoder.optional_eq_ok`, `list_eq_ok`, `map_eq_ok`, `json_eq_ok`: lists, maps, and any JSON.
* `Record.lenient_eq_ok`, `strict_eq_ok`: records, from an object as well as from an array.
-/

namespace CustomResource

namespace Decoder

variable {α : Type} {decode : Decoder α} {depth : Nat} {node : Json.Node}

/-- Only a null counts as missing. -/
theorem optional_eq_ok {x : Option α} (h : optional decode depth node = .ok x) :
    (node = .null ∧ x = none) ∨ ∃ a, node ≠ .null ∧ decode depth node = .ok a ∧ x = some a := by
  by_cases hnull : node = .null
  · subst hnull
    exact Or.inl ⟨rfl, (Except.ok.inj h).symm⟩
  · right
    rw [optional] at h
    · cases ha : decode depth node with
      | error e => simp [ha, Except.map] at h
      | ok a =>
        rw [ha] at h
        exact ⟨a, hnull, rfl, (Except.ok.inj h).symm⟩
    · exact hnull

/-! ### Lists -/

theorem items_eq_ok {nodes : List Json.Node} {stop : Option Json.Fault} {result : List α}
    (h : items decode depth nodes stop = .ok result) :
    ∀ a ∈ result, ∃ child ∈ nodes, decode depth child = .ok a := by
  induction nodes generalizing result with
  | nil =>
    cases stop with
    | none =>
      obtain rfl := Except.ok.inj h
      exact nofun
    | some f => exact nomatch h
  | cons child nodes ih =>
    rw [items] at h
    cases hitem : decode depth child with
    | error e => simp [hitem, bind, Except.bind] at h
    | ok item =>
      cases hrest : items decode depth nodes stop with
      | error e => simp [hitem, hrest, bind, Except.bind] at h
      | ok rest =>
        simp only [hitem, hrest, bind, Except.bind, pure, Except.pure, Except.ok.injEq] at h
        subst h
        refine List.forall_mem_cons.mpr ⟨⟨child, List.mem_cons_self, hitem⟩, fun a ha => ?_⟩
        obtain ⟨child', hchild, ha⟩ := ih hrest a ha
        exact ⟨child', List.mem_cons_of_mem _ hchild, ha⟩

theorem list_eq_ok {result : List α} (h : list decode depth node = .ok result) :
    ∃ left, descend depth = .ok left ∧
      ∀ a ∈ result, ∃ child ∈ node.children, decode left child = .ok a := by
  cases node with
  | array nodes stop =>
    rw [list] at h
    cases hdepth : descend depth with
    | error e => simp [hdepth, bind, Except.bind] at h
    | ok left =>
      simp only [hdepth, bind, Except.bind] at h
      exact ⟨left, rfl, items_eq_ok h⟩
  | _ => simp [list] at h

/-! ### Maps -/

/-- The induction is on the members, each of which is put among those before it. -/
theorem entries_eq_ok {members : List (Json.Lexeme String × Json.Node)} {stop : Option Json.Fault}
    {done result : List (String × α)} (hdone : Json.KeysSorted done)
    (h : entries decode depth members stop done = .ok result) :
    Json.KeysSorted result ∧
      ∀ m ∈ result, m ∈ done ∨ ∃ child ∈ members.map Prod.snd, decode depth child = .ok m.2 := by
  induction members generalizing done with
  | nil =>
    cases stop with
    | none =>
      obtain rfl := Except.ok.inj h
      exact ⟨hdone, fun m hm => Or.inl hm⟩
    | some f => exact nomatch h
  | cons member members ih =>
    obtain ⟨lexeme, child⟩ := member
    rw [entries] at h
    cases hkey : key lexeme with
    | error e => simp [hkey, bind, Except.bind] at h
    | ok name =>
      cases hvalue : decode depth child with
      | error e => simp [hkey, hvalue, bind, Except.bind] at h
      | ok value =>
        simp only [hkey, hvalue, bind, Except.bind] at h
        obtain ⟨hsorted, horigin⟩ := ih (hdone.putSorted name value) h
        refine ⟨hsorted, fun m hm => ?_⟩
        obtain hput | ⟨child', hchild, hm⟩ := horigin m hm
        · obtain rfl | hm := Json.mem_putSorted hput
          · exact Or.inr ⟨child, List.mem_cons_self, hvalue⟩
          · exact Or.inl hm
        · exact Or.inr ⟨child', List.mem_cons_of_mem _ hchild, hm⟩

theorem map_eq_ok {result : List (String × α)} (h : map decode depth node = .ok result) :
    ∃ left, descend depth = .ok left ∧ Json.KeysSorted result ∧
      ∀ m ∈ result, ∃ child ∈ node.children, decode left child = .ok m.2 := by
  cases node with
  | object members stop =>
    rw [map] at h
    cases hdepth : descend depth with
    | error e => simp [hdepth, bind, Except.bind] at h
    | ok left =>
      simp only [hdepth, bind, Except.bind] at h
      obtain ⟨hsorted, horigin⟩ := entries_eq_ok .nil h
      exact ⟨left, rfl, hsorted, fun m hm => (horigin m hm).resolve_left List.not_mem_nil⟩
  | _ => simp [map] at h

/-! ### Any JSON -/

theorem jsonItems_eq_items (depth : Nat) (nodes : List Json.Node) (stop : Option Json.Fault) :
    jsonItems depth nodes stop = items json depth nodes stop := by
  induction nodes with
  | nil => rw [jsonItems, items]
  | cons child nodes ih =>
    rw [jsonItems, items, ih]
    cases json depth child with
    | error e => rfl
    | ok item => cases items json depth nodes stop <;> rfl

theorem jsonMembers_eq_entries (depth : Nat) (members : List (Json.Lexeme String × Json.Node))
    (stop : Option Json.Fault) (done : List (String × Json)) :
    jsonMembers depth members stop done = entries json depth members stop done := by
  induction members generalizing done with
  | nil => rw [jsonMembers, entries]
  | cons m members ih =>
    obtain ⟨lexeme, child⟩ := m
    rw [jsonMembers, entries]
    cases key lexeme with
    | error e => rfl
    | ok name =>
      cases json depth child with
      | error e => rfl
      | ok value => exact ih (Json.putSorted name value done)

theorem json_array (nodes : List Json.Node) (stop : Option Json.Fault) :
    json depth (.array nodes stop) = (list json depth (.array nodes stop)).map .array := by
  rw [json, list]
  cases descend depth with
  | error e => rfl
  | ok left => exact congrArg (Except.map Json.array) (jsonItems_eq_items left nodes stop)

theorem json_object (members : List (Json.Lexeme String × Json.Node)) (stop : Option Json.Fault) :
    json depth (.object members stop) = (map json depth (.object members stop)).map .object := by
  rw [json, map]
  cases descend depth with
  | error e => rfl
  | ok left => exact congrArg (Except.map Json.object) (jsonMembers_eq_entries left members stop [])

/-- What JSON is read from. -/
theorem json_eq_ok {v : Json} (h : json depth node = .ok v) :
    (node = .null ∧ v = .null) ∨ (∃ b, node = .bool b ∧ v = .bool b) ∨
      (∃ l n, node = .number l ∧ l.value = .ok n ∧ v = .number n) ∨ (∃ s, v = .string s) ∨
      (∃ items, v = .array items ∧ list json depth node = .ok items) ∨
      ∃ members, v = .object members ∧ map json depth node = .ok members := by
  cases node with
  | null => exact Or.inl ⟨rfl, (Except.ok.inj h).symm⟩
  | bool b => exact Or.inr (Or.inl ⟨b, rfl, (Except.ok.inj h).symm⟩)
  | number l =>
    obtain ⟨value, broken⟩ := l
    cases value with
    | ok n => exact Or.inr (Or.inr (Or.inl ⟨_, n, rfl, rfl, (Except.ok.inj h).symm⟩))
    | error f => simp [json] at h
  | string l =>
    obtain ⟨value, broken⟩ := l
    cases value with
    | ok s => exact Or.inr (Or.inr (Or.inr (Or.inl ⟨s, (Except.ok.inj h).symm⟩)))
    | error f => simp [json] at h
  | array nodes stop =>
    rw [json_array] at h
    cases hlist : list json depth (.array nodes stop) with
    | error e => simp [hlist, Except.map] at h
    | ok items =>
      rw [hlist] at h
      have hv : v = .array items := (Except.ok.inj h).symm
      exact Or.inr (Or.inr (Or.inr (Or.inr (Or.inl ⟨items, hv, rfl⟩))))
  | object members stop =>
    rw [json_object] at h
    cases hmap : map json depth (.object members stop) with
    | error e => simp [hmap, Except.map] at h
    | ok members =>
      rw [hmap] at h
      have hv : v = .object members := (Except.ok.inj h).symm
      exact Or.inr (Or.inr (Or.inr (Or.inr (Or.inr ⟨members, hv, rfl⟩))))
  | broken f => simp [json] at h
  | misspelt f => simp [json] at h

end Decoder

/-! ### Records -/

theorem Slots.eq_some_of_set {F : Type} [DecidableEq F] {V : F → Type} {slots : Slots V} {f : F}
    {value : V f} {g : F} {x : V g} (h : slots.set f value g = some x) :
    (∃ heq : f = g, heq ▸ value = x) ∨ slots g = some x := by
  by_cases hfg : f = g
  · rw [Slots.set, dif_pos hfg] at h
    exact Or.inl ⟨hfg, Option.some.inj h⟩
  · rw [Slots.set, dif_neg hfg] at h
    exact Or.inr h

namespace Record

variable {F α : Type} [DecidableEq F] {r : Record F α} {depth : Nat}

theorem members_eq_ok {strict : Bool} {members : List (Json.Lexeme String × Json.Node)}
    {stop : Option Json.Fault} {slots result : Slots r.Value}
    (h : r.members strict depth members stop slots = .ok result) {f : F} {x : r.Value f}
    (hx : result f = some x) :
    slots f = some x ∨ ∃ child ∈ members.map Prod.snd, r.read f depth child = .ok x := by
  induction members generalizing slots with
  | nil =>
    cases stop with
    | none =>
      obtain rfl := Except.ok.inj h
      exact Or.inl hx
    | some f => exact nomatch h
  | cons m members ih =>
    obtain ⟨lexeme, child⟩ := m
    have hlater : (∃ child ∈ members.map Prod.snd, r.read f depth child = .ok x) →
        ∃ child' ∈ child :: members.map Prod.snd, r.read f depth child' = .ok x :=
      fun ⟨child', hmem, hread⟩ => ⟨child', List.mem_cons_of_mem _ hmem, hread⟩
    rw [Record.members] at h
    split at h
    · exact nomatch h
    · split at h
      · split at h
        · exact nomatch h
        · exact (ih h).imp_right hlater
      · split_ifs at h
        split at h
        · exact nomatch h
        · next g _ _ value hvalue =>
          obtain hset | hread := ih h
          · obtain ⟨rfl, rfl⟩ | hslots := Slots.eq_some_of_set hset
            · exact Or.inr ⟨child, List.mem_cons_self, hvalue⟩
            · exact Or.inl hslots
          · exact Or.inr (hlater hread)

theorem items_eq_ok {fields : List F} {count : Nat} {nodes left : List Json.Node}
    {stop : Option Json.Fault} {slots result : Slots r.Value}
    (h : r.items depth fields count nodes stop slots = .ok (result, left)) {f : F} {x : r.Value f}
    (hx : result f = some x) :
    slots f = some x ∨ ∃ child ∈ nodes, r.read f depth child = .ok x := by
  induction fields generalizing count nodes slots with
  | nil =>
    obtain ⟨rfl, rfl⟩ := Prod.mk.inj (Except.ok.inj h)
    exact Or.inl hx
  | cons g fields ih =>
    cases nodes with
    | nil =>
      cases stop with
      | none =>
        rw [Record.items] at h
        split_ifs at h
        exact ih h
      | some fault => simp [Record.items] at h
    | cons child nodes =>
      rw [Record.items] at h
      split at h
      · exact nomatch h
      · next value hvalue =>
        obtain hset | ⟨child', hmem, hread⟩ := ih h
        · obtain ⟨rfl, rfl⟩ | hslots := Slots.eq_some_of_set hset
          · exact Or.inr ⟨child, List.mem_cons_self, hvalue⟩
          · exact Or.inl hslots
        · exact Or.inr ⟨child', List.mem_cons_of_mem _ hmem, hread⟩

theorem eq_of_arrayEnd {β : Type} {value result : β} {nodes : List Json.Node}
    {stop : Option Json.Fault} (h : arrayEnd value nodes stop = .ok result) : value = result := by
  unfold arrayEnd at h
  split at h
  · exact Except.ok.inj h
  all_goals exact nomatch h

variable {node : Json.Node} {a : α}

/-- A record is read from an object if its members are, and built of what they hold. -/
theorem bind_members_eq_ok_iff {strict : Bool} {members : List (Json.Lexeme String × Json.Node)}
    {stop : Option Json.Fault} :
    (Decoder.descend depth >>= fun left =>
        r.members strict left members stop Slots.empty >>= r.build) = .ok a ↔
      ∃ left slots, Decoder.descend depth = .ok left ∧
        r.members strict left members stop Slots.empty = .ok slots ∧ r.build slots = .ok a := by
  constructor
  · intro h
    cases hdepth : Decoder.descend depth with
    | error e => simp [hdepth, bind, Except.bind] at h
    | ok left =>
      cases hmembers : r.members strict left members stop Slots.empty with
      | error e => simp [hdepth, hmembers, bind, Except.bind] at h
      | ok slots =>
        simp only [hdepth, hmembers, bind, Except.bind] at h
        exact ⟨left, slots, rfl, hmembers, h⟩
  · rintro ⟨left, slots, hdepth, hmembers, hbuild⟩
    simp only [hdepth, hmembers, hbuild, bind, Except.bind]

theorem strict_object_eq_ok_iff {members : List (Json.Lexeme String × Json.Node)}
    {stop : Option Json.Fault} :
    r.strict depth (.object members stop) = .ok a ↔
      ∃ left slots, Decoder.descend depth = .ok left ∧
        r.members true left members stop Slots.empty = .ok slots ∧ r.build slots = .ok a :=
  bind_members_eq_ok_iff

theorem lenient_object_eq_ok_iff {members : List (Json.Lexeme String × Json.Node)}
    {stop : Option Json.Fault} :
    r.lenient depth (.object members stop) = .ok a ↔
      ∃ left slots, Decoder.descend depth = .ok left ∧
        r.members false left members stop Slots.empty = .ok slots ∧ r.build slots = .ok a :=
  bind_members_eq_ok_iff

/-- A strict record is read from an array if its fields are read from the items in order. -/
theorem exists_items_of_strict_array {nodes : List Json.Node} {stop : Option Json.Fault}
    (h : r.strict depth (.array nodes stop) = .ok a) :
    ∃ left slots rest, Decoder.descend depth = .ok left ∧
      r.items left r.fields 0 nodes stop Slots.empty = .ok (slots, rest) ∧
      r.build slots = .ok a := by
  rw [strict] at h
  cases hdepth : Decoder.descend depth with
  | error e => simp [hdepth, bind, Except.bind] at h
  | ok left =>
    cases hitems : r.items left r.fields 0 nodes stop Slots.empty with
    | error e => simp [hdepth, hitems, bind, Except.bind] at h
    | ok read =>
      obtain ⟨slots, rest⟩ := read
      cases hbuild : r.build slots with
      | error e => simp [hdepth, hitems, hbuild, bind, Except.bind] at h
      | ok value =>
        simp only [hdepth, hitems, hbuild, bind, Except.bind] at h
        obtain rfl := eq_of_arrayEnd h
        exact ⟨left, slots, rest, rfl, hitems, hbuild⟩

/-- What a record is read from, if every field is read from a value that stands in the document. -/
theorem lenient_eq_ok (h : r.lenient depth node = .ok a) :
    ∃ left slots, Decoder.descend depth = .ok left ∧ r.build slots = .ok a ∧
      ∀ f x, slots f = some x → ∃ child ∈ node.children, r.read f left child = .ok x := by
  cases node with
  | object members stop =>
    obtain ⟨left, slots, hdepth, hmembers, hbuild⟩ := lenient_object_eq_ok_iff.mp h
    exact ⟨left, slots, hdepth, hbuild, fun f x hx =>
      (members_eq_ok hmembers hx).resolve_left nofun⟩
  | array nodes stop =>
    rw [lenient] at h
    cases hdepth : Decoder.descend depth <;> simp [hdepth, bind, Except.bind] at h
  | _ => simp [lenient] at h

theorem strict_eq_ok (h : r.strict depth node = .ok a) :
    ∃ left slots, Decoder.descend depth = .ok left ∧ r.build slots = .ok a ∧
      ∀ f x, slots f = some x → ∃ child ∈ node.children, r.read f left child = .ok x := by
  cases node with
  | object members stop =>
    obtain ⟨left, slots, hdepth, hmembers, hbuild⟩ := strict_object_eq_ok_iff.mp h
    exact ⟨left, slots, hdepth, hbuild, fun f x hx =>
      (members_eq_ok hmembers hx).resolve_left nofun⟩
  | array nodes stop =>
    obtain ⟨left, slots, rest, hdepth, hitems, hbuild⟩ := exists_items_of_strict_array h
    exact ⟨left, slots, hdepth, hbuild, fun f x hx => (items_eq_ok hitems hx).resolve_left nofun⟩
  | _ => simp [strict] at h

end Record

end CustomResource
