import CustomResource.Proofs.Clock.Timestamp
import CustomResource.Proofs.Decode.Origin
import CustomResource.Proofs.Decode.Records
import CustomResource.Resource.Metadata

/-!
# Decoders on what is written

What a decoder has read can be written as JSON and read once more. A decoder is stable if nothing is
lost on that way but what was not written. Maps, and JSON of any form, are put into the order of
their keys as they are read, so they are read back as they are only because they have been read
before.

## Main definitions

* `Decoder.Stable`: what is written for a value that has been read is read back.

## Main results

* `Decoder.stable_list`, `stable_stringMap`, `stable_json`: lists, maps of strings, and any JSON.
* `Decoder.Stable.optional_rel`: a field that may be missing.
* `Decoder.isExact_of_json`: the integers of JSON that has been read are in range.
* `Decoder.Stable.ofText_render`: texts.
-/

namespace CustomResource

namespace Decoder

variable {α : Type} {decode : Decoder α} {encode : α → Json} {norm : α → α} {depth : Nat}

/-- From what is written for a value that has been read the decoder reads the value again, up to a
part that is not written. A null is written only for a null. -/
structure Stable (decode : Decoder α) (encode : α → Json) (norm : α → α) (depth : Nat) :
    Prop where
  read : ∀ {node a}, decode depth node = .ok a → decode depth (encode a).toNode = .ok (norm a)
  null : ∀ {node a}, decode depth node = .ok a → encode a = .null → node = .null

/-- Where values are read back however they have come about, and none is written as null. -/
theorem Stable.of_forall (hread : ∀ a, decode depth (encode a).toNode = .ok (norm a))
    (hnull : ∀ a, encode a ≠ .null) : Stable decode encode norm depth where
  read _ := hread _
  null _ h := absurd h (hnull _)

/-! ### Single values -/

theorem stable_string : Stable string .string id depth := .of_forall (fun _ => rfl) nofun

theorem stable_bool : Stable bool .bool id depth := .of_forall (fun _ => rfl) nofun

theorem int32_toNode (depth : Nat) (n : Int32) : int32 depth (Json.int n.toInt).toNode = .ok n := by
  have hlow := n.le_toInt
  have hhigh := n.toInt_lt
  have hbounds : -2147483648 ≤ n.toInt ∧ n.toInt ≤ 2147483647 := by omega
  rw [int32, Json.int, Json.toNode, Json.Lexeme.ofValue, integer, if_pos hbounds]
  simp [Except.map]

theorem stable_int64 : Stable int64 (fun n => .int n.toInt) id depth := by
  refine .of_forall (fun n => ?_) nofun
  have hlow := n.le_toInt
  have hhigh := n.toInt_lt
  have hbounds : -9223372036854775808 ≤ n.toInt ∧ n.toInt ≤ 9223372036854775807 := by omega
  rw [int64, Json.int, Json.toNode, Json.Lexeme.ofValue, integer, if_pos hbounds]
  simp [Except.map]

/-- An instant is written to the second. -/
theorem stable_timestamp :
    Stable timestamp (fun t => .string t.render) Timestamp.toSecond depth := by
  refine .of_forall (fun t => ?_) fun t => by simp
  rw [Json.toNode, Json.Lexeme.ofValue, timestamp, Timestamp.ofText_render]
  rfl

/-! ### Lists -/

/-- A list that is written is read back, if its items are. -/
theorem list_map {left : Nat} (hdepth : descend depth = .ok left) {items : List α}
    (h : ∀ item ∈ items, decode left (encode item).toNode = .ok (norm item)) :
    list decode depth (Json.array (items.map encode)).toNode = .ok (items.map norm) := by
  refine list_array hdepth ?_
  rw [List.forall₂_map_left_iff, List.forall₂_map_right_iff]
  exact List.forall₂_same.mpr h

theorem stable_list (h : ∀ left, Stable decode encode norm left) :
    Stable (list decode) (fun items => .array (items.map encode)) (List.map norm) depth where
  read hread := by
    obtain ⟨left, hdepth, horigin⟩ := list_eq_ok hread
    refine list_map hdepth fun item hitem => ?_
    obtain ⟨child, -, hchild⟩ := horigin item hitem
    exact (h left).read hchild
  null _ hnull := nomatch hnull

theorem strings_ofStrings {left : Nat} (hdepth : descend depth = .ok left) (items : List String) :
    strings depth (Json.ofStrings items).toNode = .ok items := by
  have hitems : ∀ item ∈ items, string left (Json.string item).toNode = .ok (id item) :=
    fun _ _ => rfl
  have hread := list_map hdepth hitems
  rwa [List.map_id] at hread

theorem stable_list_id (h : ∀ left, Stable decode encode id left) :
    Stable (list decode) (fun items => .array (items.map encode)) id depth := by
  rw [← List.map_id_fun]
  exact stable_list h

theorem stable_strings : Stable strings Json.ofStrings id depth :=
  stable_list_id fun _ => stable_string

/-! ### Maps -/

/-- Members in the order of their keys are put into a map as they come. -/
theorem entries_memberNodes {members done : List (String × α)}
    (hread : ∀ m ∈ members, decode depth (encode m.2).toNode = .ok m.2)
    (h : Json.KeysSorted (done ++ members)) :
    entries decode depth (Json.memberNodes (members.map fun m => (m.1, encode m.2))) none done =
      .ok (done ++ members) := by
  induction members generalizing done with
  | nil => rw [List.append_nil]; rfl
  | cons m members ih =>
    obtain ⟨hfirst, hrest⟩ := List.forall_mem_cons.mp hread
    have hput := Json.putSorted_of_lt h.lt_of_append m.2
    rw [List.map_cons, Json.memberNodes, entries]
    simp only [key, Json.Lexeme.ofValue, Except.mapError, hfirst, bind, Except.bind, hput]
    rw [ih hrest (by simpa using h), List.append_assoc]
    rfl

theorem map_object {left : Nat} (hdepth : descend depth = .ok left) {members : List (String × α)}
    (hread : ∀ m ∈ members, decode left (encode m.2).toNode = .ok m.2)
    (h : Json.KeysSorted members) :
    map decode depth (Json.object (members.map fun m => (m.1, encode m.2))).toNode =
      .ok members := by
  rw [Json.toNode, map, hdepth]
  exact entries_memberNodes hread h

theorem stable_stringMap : Stable stringMap Json.ofStringMap id depth where
  read hread := by
    obtain ⟨left, hdepth, hsorted, -⟩ := map_eq_ok hread
    have hvalue : ∀ s, string left (Json.string s).toNode = .ok s := fun _ => rfl
    exact map_object hdepth (fun m _ => hvalue m.2) hsorted
  null _ hnull := nomatch hnull

/-! ### Any JSON -/

theorem lt_of_descend {left : Nat} (h : descend depth = .ok left) : left < depth := by
  obtain ⟨rfl, -⟩ := descend_eq_ok.mp h
  exact Nat.lt_succ_self left

/-- The induction is on the depth of nesting that is left. -/
theorem json_toNode {node : Json.Node} {v : Json} (h : json depth node = .ok v) :
    json depth v.toNode = .ok v := by
  induction depth using Nat.strong_induction_on generalizing node v with
  | _ depth ih =>
    obtain ⟨-, rfl⟩ | ⟨b, -, rfl⟩ | ⟨l, n, -, -, rfl⟩ | ⟨s, rfl⟩ | ⟨items, rfl, hlist⟩ |
      ⟨members, rfl, hmap⟩ := json_eq_ok h
    · rfl
    · rfl
    · rfl
    · rfl
    · obtain ⟨left, hdepth, horigin⟩ := list_eq_ok hlist
      have hread : list json depth (Json.array (items.map id)).toNode = .ok (items.map id) := by
        refine list_map hdepth fun item hitem => ?_
        obtain ⟨child, -, hchild⟩ := horigin item hitem
        exact ih left (lt_of_descend hdepth) hchild
      rw [List.map_id] at hread
      exact (json_array _ _).trans (congrArg (Except.map Json.array) hread)
    · obtain ⟨left, hdepth, hsorted, horigin⟩ := map_eq_ok hmap
      have hread : map json depth (Json.object (members.map fun m => (m.1, id m.2))).toNode =
          .ok members := by
        refine map_object hdepth (fun m hm => ?_) hsorted
        obtain ⟨child, -, hchild⟩ := horigin m hm
        exact ih left (lt_of_descend hdepth) hchild
      rw [show (members.map fun m => (m.1, id m.2)) = members from List.map_id members] at hread
      exact (json_object _ _).trans (congrArg (Except.map Json.object) hread)

theorem stable_json : Stable json id id depth where
  read := json_toNode
  null h hnull := by
    obtain ⟨hnode, -⟩ | ⟨_, -, rfl⟩ | ⟨_, _, -, -, rfl⟩ | ⟨_, rfl⟩ | ⟨_, rfl, -⟩ | ⟨_, rfl, -⟩ :=
      json_eq_ok h
    · exact hnode
    all_goals exact nomatch hnull

/-- **The integers of JSON that has been read are in range**, so that without doubles it is read
back from its text. -/
theorem isExact_of_json {node : Json.Node} {v : Json} (hnode : node.InRange)
    (h : json depth node = .ok v) (hv : v.hasNoDoubles = true) : v.isExact = true := by
  induction depth using Nat.strong_induction_on generalizing node v with
  | _ depth ih =>
    obtain ⟨-, rfl⟩ | ⟨b, -, rfl⟩ | ⟨l, n, rfl, hn, rfl⟩ | ⟨s, rfl⟩ | ⟨items, rfl, hlist⟩ |
      ⟨members, rfl, hmap⟩ := json_eq_ok h
    · rfl
    · rfl
    · cases n with
      | int n => exact hnode _ hn
      | float x => exact nomatch hv
    · rfl
    · obtain ⟨left, hdepth, horigin⟩ := list_eq_ok hlist
      refine Json.isExact_array.mpr fun item hitem => ?_
      obtain ⟨child, hmem, hchild⟩ := horigin item hitem
      exact ih left (lt_of_descend hdepth) (hnode.of_mem_children hmem) hchild
        (Json.hasNoDoubles_array.mp hv item hitem)
    · obtain ⟨left, hdepth, -, horigin⟩ := map_eq_ok hmap
      refine Json.isExact_object.mpr fun m hm => ?_
      obtain ⟨child, hmem, hchild⟩ := horigin m hm
      exact ih left (lt_of_descend hdepth) (hnode.of_mem_children hmem) hchild
        (Json.hasNoDoubles_object.mp hv m hm)

/-! ### Fields that may be missing -/

/-- What has been found of a field that may be missing has been read from a value that is not
null. -/
theorem exists_read_of_join {nodes : List Json.Node} {slot : Option (Option α)}
    (hslot : ∀ x, slot = some x → ∃ child ∈ nodes, optional decode depth child = .ok x) {a : α}
    (h : slot.join = some a) : ∃ child ∈ nodes, child ≠ .null ∧ decode depth child = .ok a := by
  obtain ⟨child, hmem, hread⟩ := hslot (some a) (Option.join_eq_some_iff.mp h)
  obtain ⟨-, hnone⟩ | ⟨a', hne, hchild, heq⟩ := optional_eq_ok hread
  · exact nomatch hnone
  · obtain rfl := Option.some.inj heq
    exact ⟨child, hmem, hne, hchild⟩

/-- A field that may be missing is read back where it is written, and missing where it is not. -/
theorem Stable.optional_rel (h : Stable decode encode norm depth) {nodes : List Json.Node}
    {slot : Option (Option α)}
    (hslot : ∀ x, slot = some x → ∃ child ∈ nodes, optional decode depth child = .ok x) :
    Option.Rel (fun value x => optional decode depth value.toNode = .ok x)
      (slot.join.map encode) ((slot.join.map norm).map some) := by
  cases hjoin : slot.join with
  | none => exact .none
  | some a =>
    obtain ⟨child, -, hne, hchild⟩ := exists_read_of_join hslot hjoin
    exact .some (optional_eq_some (fun hnull => hne (h.null hchild hnull)) (h.read hchild))

theorem Stable.optional_rel_id (h : Stable decode encode id depth) {nodes : List Json.Node}
    {slot : Option (Option α)}
    (hslot : ∀ x, slot = some x → ∃ child ∈ nodes, optional decode depth child = .ok x) :
    Option.Rel (fun value x => optional decode depth value.toNode = .ok x)
      (slot.join.map encode) (slot.join.map some) := by
  have hrel := h.optional_rel hslot
  rwa [Option.map_id_fun, id] at hrel

/-! ### Texts -/

/-- Where a check of what is read succeeds, something is read, and it passes the check. -/
theorem exists_of_any {ε : Type} {read : Except ε α} {check : α → Bool}
    (h : read.toOption.any check = true) : ∃ a, read = .ok a ∧ check a = true := by
  cases read with
  | error e => simp [Except.toOption] at h
  | ok a => exact ⟨a, rfl, h⟩

theorem ofText_eq_ok {text : String} {a : α} (h : ofText decode text = .ok a) :
    decode startDepth (Json.Document.ofText text).root = .ok a := by
  rw [ofText, ofDocument] at h
  cases hread : decode startDepth (Json.Document.ofText text).root with
  | error e => simp [hread, bind, Except.bind] at h
  | ok a' =>
    simp only [hread, bind, Except.bind] at h
    split_ifs at h
    exact h

/-- From the text of a value a decoder reads what it reads from the value. -/
theorem ofText_render {v : Json} (hv : v.isExact = true) :
    ofText decode v.render = decode startDepth v.toNode := by
  rw [ofText, Json.Document.ofText_render hv, ofDocument]
  cases decode startDepth v.toNode <;> rfl

/-- **A stable decoder reads from the text of what it has read** the same value, up to the part that
is not written. -/
theorem Stable.ofText_render (h : Stable decode encode norm startDepth) {text : String} {a : α}
    (hread : ofText decode text = .ok a) (hexact : (encode a).isExact = true) :
    ofText decode (encode a).render = .ok (norm a) :=
  (Decoder.ofText_render hexact).trans (h.read (ofText_eq_ok hread))

end Decoder

end CustomResource
