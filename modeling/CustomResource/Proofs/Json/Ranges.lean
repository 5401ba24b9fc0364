import CustomResource.Proofs.Json.Reading

/-!
# What documents consist of

The values in a document, and the integers in the document of a text: the reader takes for an
integer only what 64 bits hold.

## Main definitions

* `Json.Node.children`: the values that stand directly in a value.
* `Json.Node.InRange`: a value whose numbers all have values that a reader gives to numbers.
* `Json.hasNoDoubles`: a value without doubles.

## Main results

* `Json.Document.inRange_ofText`: the numbers of a text are in range.
-/

namespace CustomResource.Json

/-! ### Values in a document -/

/-- The values that stand directly in a value of a document. -/
def Node.children : Node → List Node
  | .array items _ => items
  | .object members _ => members.map Prod.snd
  | _ => []

/-- A number that a reader gives for one: a double, or an integer of 64 bits. -/
def Number.InRange : Number → Prop
  | .int n => (Number.int n).isExact = true
  | .float _ => True

mutual

/-- Every number in a value of a document that has a value has one that a reader gives. -/
def Node.InRange : Node → Prop
  | .broken _ => True
  | .misspelt _ => True
  | .null => True
  | .bool _ => True
  | .number l => ∀ n, l.value = .ok n → n.InRange
  | .string _ => True
  | .array items _ => Node.ItemsInRange items
  | .object members _ => Node.MembersInRange members

/-- `Node.InRange` for the items of an array. -/
def Node.ItemsInRange : List Node → Prop
  | [] => True
  | item :: items => item.InRange ∧ Node.ItemsInRange items

/-- `Node.InRange` for the members of an object. -/
def Node.MembersInRange : List (Lexeme String × Node) → Prop
  | [] => True
  | (_, value) :: members => value.InRange ∧ Node.MembersInRange members

end

theorem Node.itemsInRange_iff {items : List Node} :
    ItemsInRange items ↔ ∀ item ∈ items, item.InRange := by
  induction items with
  | nil => simp [ItemsInRange]
  | cons item items ih => rw [ItemsInRange, ih, List.forall_mem_cons]

theorem Node.membersInRange_iff {members : List (Lexeme String × Node)} :
    MembersInRange members ↔ ∀ m ∈ members, m.2.InRange := by
  induction members with
  | nil => simp [MembersInRange]
  | cons m members ih => rw [MembersInRange, ih, List.forall_mem_cons]

/-- What stands in a value that is in range is in range. -/
theorem Node.InRange.of_mem_children {node child : Node} (h : node.InRange)
    (hchild : child ∈ node.children) : child.InRange := by
  cases node with
  | array items stop => exact Node.itemsInRange_iff.mp h child hchild
  | object members stop =>
    obtain ⟨m, hm, rfl⟩ := List.mem_map.mp hchild
    exact Node.membersInRange_iff.mp h m hm
  | _ => exact nomatch hchild

/-! ### The document of a text -/

theorem NumberParts.value_inRange {p : NumberParts} {n : Number} (h : p.value = .ok n) :
    n.InRange := by
  cases n with
  | float x => trivial
  | int i =>
    have hfloat : ∀ i, p.toFloat.map Number.float ≠ .ok (.int i) := by
      intro i heq
      cases hx : p.toFloat <;> simp [hx, Except.map] at heq
    rw [value] at h
    split at h
    · split_ifs at h with hsmall hnegative
      · obtain rfl := Number.int.inj (Except.ok.inj h)
        have hlt := hsmall.2
        norm_num at hlt
        simp only [Number.InRange, Number.isExact, Bool.and_eq_true, decide_eq_true_eq]
        omega
      · obtain rfl := Number.int.inj (Except.ok.inj h)
        have hle := hnegative.2.2
        norm_num at hle
        simp only [Number.InRange, Number.isExact, Bool.and_eq_true, decide_eq_true_eq]
        omega
      · exact absurd h (hfloat i)
    · exact absurd h (hfloat i)

theorem numberLexeme_inRange (negative : Bool) (cs : List Char) :
    (Node.number (numberLexeme negative cs).1).InRange := by
  intro n hn
  rw [numberLexeme] at hn
  split at hn
  · exact NumberParts.value_inRange hn
  · cases hn
  · cases hn

theorem readWord_inRange {value : Node} (h : value.InRange) (word cs : List Char) :
    (readWord value word cs).1.InRange := by
  induction word generalizing cs with
  | nil => exact h
  | cons w word ih =>
    cases cs with
    | nil => trivial
    | cons c cs =>
      rw [readWord]
      split_ifs
      · exact ih cs
      · trivial

mutual

/-- The induction is on the steps of the reader. -/
theorem readValue_inRange : (fuel : Nat) → (cs : List Char) → (readValue fuel cs).1.InRange
  | 0, _ => trivial
  | fuel + 1, cs => by
    rw [readValue]
    split
    · trivial
    · exact readWord_inRange (show Node.null.InRange from trivial) _ _
    · exact readWord_inRange (show (Node.bool true).InRange from trivial) _ _
    · exact readWord_inRange (show (Node.bool false).InRange from trivial) _ _
    · trivial
    · exact numberLexeme_inRange true _
    · split
      · trivial
      · trivial
      · exact ⟨readValue_inRange fuel _, readItems_inRange fuel _⟩
    · split
      · trivial
      · trivial
      · exact ⟨readMember_inRange fuel _, readMembers_inRange fuel _⟩
      · trivial
    · split_ifs
      · exact numberLexeme_inRange false _
      · trivial

theorem readItems_inRange : (fuel : Nat) → (cs : List Char) →
    Node.ItemsInRange (readItems fuel cs).1.1
  | 0, _ => trivial
  | fuel + 1, cs => by
    rw [readItems]
    split
    · trivial
    · trivial
    · split
      · exact ⟨trivial, trivial⟩
      · exact ⟨readValue_inRange fuel _, readItems_inRange fuel _⟩
    · trivial

theorem readMember_inRange : (fuel : Nat) → (cs : List Char) →
    (readMember fuel cs).1.2.InRange
  | 0, _ => trivial
  | fuel + 1, cs => by
    rw [readMember]
    simp only
    split
    · trivial
    · exact readValue_inRange fuel _
    · trivial

theorem readMembers_inRange : (fuel : Nat) → (cs : List Char) →
    Node.MembersInRange (readMembers fuel cs).1.1
  | 0, _ => trivial
  | fuel + 1, cs => by
    rw [readMembers]
    split
    · trivial
    · trivial
    · split
      · trivial
      · exact ⟨readMember_inRange fuel _, readMembers_inRange fuel _⟩
      · trivial
      · trivial
    · trivial

end

/-- **The numbers of a text are in range.** -/
theorem Document.inRange_ofText (text : String) : (Document.ofText text).root.InRange := by
  rw [Document.ofText, Document.ofChars]
  exact readValue_inRange _ _

/-! ### Values without doubles -/

/-- Whether no number in a value is a double. -/
def hasNoDoubles (v : Json) : Bool :=
  v.all fun
    | .number (.float _) => false
    | _ => true

theorem hasNoDoubles_array {items : List Json} :
    (array items).hasNoDoubles = true ↔ ∀ item ∈ items, item.hasNoDoubles = true := by
  rw [hasNoDoubles, all_array]
  exact and_iff_right rfl

theorem hasNoDoubles_object {members : List (String × Json)} :
    (object members).hasNoDoubles = true ↔ ∀ m ∈ members, m.2.hasNoDoubles = true := by
  rw [hasNoDoubles, all_object]
  exact and_iff_right rfl

end CustomResource.Json
