import CustomResource.Proofs.Decode.Alike
import CustomResource.Proofs.Resource.Reencoding

/-!
# Objects whose documents are alike

What is read of an object depends only on the fields that are known: the members of the object, of
its metadata and the records in there, of its spec and of its status may come in any order, and
members of other names may come and go, the version and the kind of the object among them. Maps and
values of unknown shape are left as they are, and so is a state.

A member that is no field is passed over, but its name is read. Where an escape in it stands for
half of a character, there is no such text, and the object is refused.

## Main definitions

* `Metadata.Alike`, `Spec.Alike`, `Status.Alike`, `Object.Alike`: documents that are alike.

## Main results

* `Object.Alike.trans`: changes may be made one after the other.
* `Object.respects_decode`: an object is read alike from documents that are alike.
* `Object.decode_unordered`: the same for texts.
* `Object.exists_name_of_decode`: all members of an object that is read have names.
-/

namespace CustomResource

open Decoder

/-! ### Metadata -/

/-- Documents of owner references that are alike. -/
def OwnerReference.Alike : Json.Node → Json.Node → Prop := record.Alike fun _ => Eq

theorem OwnerReference.respects_decode : decode.Respects OwnerReference.Alike :=
  Record.respects_lenient fun f => respects_eq (record.read f)

/-- Documents of managed fields that are alike. The fields that are managed are left as they are. -/
def ManagedFieldsEntry.Alike : Json.Node → Json.Node → Prop := record.Alike fun _ => Eq

theorem ManagedFieldsEntry.respects_decode : decode.Respects ManagedFieldsEntry.Alike :=
  Record.respects_lenient fun f => respects_eq (record.read f)

namespace Metadata

/-- Values of the fields of metadata that are alike: in the two lists of records these may be alike
one by one, and all other values are left as they are. -/
def FieldAlike : Field → Json.Node → Json.Node → Prop
  | .managedFields => Json.Node.ItemsAlike ManagedFieldsEntry.Alike
  | .ownerReferences => Json.Node.ItemsAlike OwnerReference.Alike
  | _ => Eq

theorem fieldAlike_same (f : Field) (node : Json.Node) : FieldAlike f node node := by
  cases f with
  | managedFields | ownerReferences => exact .same node
  | _ => rfl

theorem FieldAlike.trans {f : Field} {node node' node'' : Json.Node} (h : FieldAlike f node node')
    (h' : FieldAlike f node' node'') : FieldAlike f node node'' := by
  cases f with
  | managedFields | ownerReferences =>
    refine Json.Node.ItemsAlike.trans ?_ h h'
    exact fun _ _ _ => Record.Alike.trans_eq
  | _ => exact Eq.trans h h'

/-- Documents of metadata that are alike. -/
def Alike : Json.Node → Json.Node → Prop := record.Alike FieldAlike

theorem Alike.trans {node node' node'' : Json.Node} (h : Alike node node')
    (h' : Alike node' node'') : Alike node node'' := by
  refine Record.Alike.trans ?_ h h'
  exact fun _ _ _ _ => FieldAlike.trans

theorem respects_decode : decode.Respects Alike := by
  refine Record.respects_lenient fun f => ?_
  cases f with
  | managedFields => exact ManagedFieldsEntry.respects_decode.list.optional
  | ownerReferences => exact OwnerReference.respects_decode.list.optional
  | _ => exact respects_eq _

end Metadata

/-! ### Spec and status -/

/-- Documents of specs that are alike. -/
def Spec.Alike : Kind → Json.Node → Json.Node → Prop
  | .example => (SampleSpec.record "struct ExampleSpec").Alike fun _ => Eq
  | .test => (SampleSpec.record "struct TestSpec").Alike fun _ => Eq
  | .jinghzhu => (PodSetSpec.record "struct JinghzhuSpec").Alike fun _ => Eq

theorem Spec.Alike.trans {k : Kind} {node node' node'' : Json.Node} (h : Alike k node node')
    (h' : Alike k node' node'') : Alike k node node'' := by
  cases k <;> exact Record.Alike.trans_eq h h'

theorem Spec.respects_decode : (k : Kind) → (Spec.decode k).Respects (Spec.Alike k)
  | .example => Record.respects_strict fun _ => respects_eq _
  | .test => Record.respects_strict fun _ => respects_eq _
  | .jinghzhu => Record.respects_strict fun _ => respects_eq _

/-- Documents of statuses that are alike. The state is left as it is. -/
def Status.Alike : Json.Node → Json.Node → Prop := (record State.decode).Alike fun _ => Eq

theorem Status.respects_decode : decode.Respects Status.Alike :=
  Record.respects_strict fun _ => respects_eq _

theorem Status.Alike.trans {node node' node'' : Json.Node} (h : Alike node node')
    (h' : Alike node' node'') : Alike node node'' :=
  Record.Alike.trans_eq h h'

/-! ### Objects -/

namespace Object

variable {k : Kind}

/-- Values of the fields of an object that are alike. -/
def FieldAlike (k : Kind) : Field → Json.Node → Json.Node → Prop
  | .metadata => Metadata.Alike
  | .spec => Spec.Alike k
  | .status => Status.Alike

theorem fieldAlike_same (f : Field) (node : Json.Node) : FieldAlike k f node node := by
  cases f with
  | spec => cases k <;> exact .same node
  | metadata | status => exact .same node

/-- Documents of objects that are alike. -/
def Alike (k : Kind) : Json.Node → Json.Node → Prop :=
  (record k Status.decode).Alike (FieldAlike k)

/-- Changes to an object and to the records in it may be made one after the other. -/
theorem Alike.trans {node node' node'' : Json.Node} (h : Alike k node node')
    (h' : Alike k node' node'') : Alike k node node'' := by
  refine Record.Alike.trans (fun f a b c hab hbc => ?_) h h'
  cases f with
  | metadata => exact Metadata.Alike.trans hab hbc
  | spec => exact Spec.Alike.trans hab hbc
  | status => exact Status.Alike.trans hab hbc

theorem respects_decode (k : Kind) : (decode k).Respects (Alike k) := by
  refine Record.respects_strict fun f => ?_
  cases f with
  | metadata => exact Metadata.respects_decode
  | spec => exact Spec.respects_decode k
  | status => exact Status.respects_decode.optional

/-- **Objects are read from their known fields.** An object that has been read from a text without
repeated keys is read from every text whose document is alike: the members of its records in any
order, and any other members with names and well-formed values among them. -/
theorem decode_unordered {text text' : String} {o : Object k}
    (h : ofText (decode k) text = .ok o)
    (hkeys : (Json.Document.ofText text).root.hasDistinctKeys = true)
    (halike : Alike k (Json.Document.ofText text).root (Json.Document.ofText text').root)
    (htrailing : (Json.Document.ofText text').trailing = false) :
    ofText (decode k) text' = .ok o := by
  have hread := (respects_decode k).read hkeys halike (ofText_eq_ok h)
  rw [ofText, ofDocument, hread, htrailing]
  rfl

/-- An object in a state that no one knows. -/
def plainText : String :=
  "\x7b\"apiVersion\":null,\"metadata\":\x7b\"name\":\"x\",\"uid\":null\x7d," ++
    "\"spec\":\x7b\"foo\":\"hello\",\"bar\":true\x7d," ++
    "\"status\":\x7b\"state\":\"Odd\",\"message\":\"\"\x7d\x7d"

/-- The same object without its version and with its members in another order, among which there are
two more. -/
def shuffledText : String :=
  "\x7b\"kind\":\"Other\"," ++
    "\"status\":\x7b\"since\":[\"\\ud800\"],\"message\":\"\",\"state\":\"Odd\"\x7d," ++
    "\"spec\":\x7b\"bar\":true,\"foo\":\"hello\"\x7d," ++
    "\"metadata\":\x7b\"uid\":null,\"name\":\"x\"\x7d\x7d"

/-- The members of `plainText` that are fields. -/
def plainMembers : List (Json.Lexeme String × Json.Node) :=
  [(.ofValue "metadata", .object (Json.memberNodes [("name", .string "x"), ("uid", .null)]) none),
    (.ofValue "spec", .object (Json.memberNodes
      [("foo", .string "hello"), ("bar", .bool true)]) none),
    (.ofValue "status", .object (Json.memberNodes
      [("state", .string "Odd"), ("message", .string "")]) none)]

theorem document_plainText : Json.Document.ofText plainText =
    ⟨.object ((.ofValue "apiVersion", .null) :: plainMembers) none, false⟩ := by
  unfold plainText Json.Document.ofText
  simp only [String.toList_append]
  rw [String.toList_ofList, String.toList_ofList, String.toList_ofList]
  cbv

theorem document_shuffledText : Json.Document.ofText shuffledText =
    ⟨.object [(.ofValue "kind", .string (.ofValue "Other")),
      (.ofValue "status", .object ((.ofValue "since",
          .array [.string ⟨.error .endOfSurrogatePair, none⟩] none) ::
        Json.memberNodes [("message", .string ""), ("state", .string "Odd")]) none),
      (.ofValue "spec", .object (Json.memberNodes
        [("bar", .bool true), ("foo", .string "hello")]) none),
      (.ofValue "metadata", .object (Json.memberNodes
        [("uid", .null), ("name", .string "x")]) none)] none, false⟩ := by
  unfold shuffledText Json.Document.ofText
  simp only [String.toList_append]
  rw [String.toList_ofList, String.toList_ofList, String.toList_ofList, String.toList_ofList]
  cbv

theorem alike_shuffledText : Alike .test (Json.Document.ofText plainText).root
    (Json.Document.ofText shuffledText).root := by
  rw [document_plainText, document_shuffledText]
  have herased : Alike .test (.object ((.ofValue "apiVersion", .null) :: plainMembers) none)
      (.object plainMembers none) :=
    Record.Alike.of_erase fieldAlike_same rfl [] plainMembers
  have hmetadata : Metadata.Alike
      (.object (Json.memberNodes [("name", .string "x"), ("uid", .null)]) none)
      (.object (Json.memberNodes [("uid", .null), ("name", .string "x")]) none) :=
    .of_perm Metadata.fieldAlike_same (.swap _ _ _)
  have hspec : Spec.Alike .test
      (.object (Json.memberNodes [("foo", .string "hello"), ("bar", .bool true)]) none)
      (.object (Json.memberNodes [("bar", .bool true), ("foo", .string "hello")]) none) :=
    .of_perm (fun _ _ => rfl) (.swap _ _ _)
  have hsince : (Json.Node.array [.string ⟨.error .endOfSurrogatePair, none⟩] none).WellFormed :=
    .array (by simpa using .string rfl)
  have hmoved : Status.Alike
      (.object (Json.memberNodes [("state", .string "Odd"), ("message", .string "")]) none)
      (.object (Json.memberNodes [("message", .string ""), ("state", .string "Odd")]) none) :=
    .of_perm (fun _ _ => rfl) (.swap _ _ _)
  have hinserted : Status.Alike
      (.object (Json.memberNodes [("message", .string ""), ("state", .string "Odd")]) none)
      (.object ((.ofValue "since", .array [.string ⟨.error .endOfSurrogatePair, none⟩] none) ::
        Json.memberNodes [("message", .string ""), ("state", .string "Odd")]) none) :=
    Record.Alike.of_insert (fun _ _ => rfl) rfl (fun _ => ⟨⟨_, rfl⟩, hsince⟩) [] _
  have hstatus := hmoved.trans hinserted
  have hkind : (record .test Status.decode).Harmless
      (.ofValue "kind", .string (.ofValue "Other")) := fun _ => ⟨⟨_, rfl⟩, .string rfl⟩
  have hfield : ∀ f node, (record .test Status.decode).Harmless (.ofValue (Field.name f), node) :=
    fun f node hnone => by cases f <;> exact nomatch hnone
  refine herased.trans (.object (List.reverse_perm _).symm
    (.cons ⟨rfl, hstatus⟩ (.cons ⟨rfl, hspec⟩ (.cons ⟨rfl, hmetadata⟩ .nil))) ?_)
  simp only [List.forall_mem_cons]
  exact ⟨.inr hkind, .inr (hfield .status _), .inr (hfield .spec _), .inr (hfield .metadata _),
    List.forall_mem_nil _⟩

theorem exists_of_plainText : ∃ o : Object .test, ofText (decode .test) plainText = .ok o := by
  have hcheck : (ofText (decode .test) plainText).toOption.any (fun _ => true) = true := by
    rw [ofText, document_plainText]
    decide +kernel
  obtain ⟨o, hread, -⟩ := exists_of_any hcheck
  exact ⟨o, hread⟩

theorem hasDistinctKeys_plainText :
    (Json.Document.ofText plainText).root.hasDistinctKeys = true := by
  rw [document_plainText]
  decide

theorem decode_unordered_shuffledText : ∃ o : Object .test,
    ofText (decode .test) plainText = .ok o ∧
      (Json.Document.ofText plainText).root.hasDistinctKeys = true ∧
      Alike .test (Json.Document.ofText plainText).root (Json.Document.ofText shuffledText).root ∧
      ofText (decode .test) shuffledText = .ok o := by
  obtain ⟨o, hread⟩ := exists_of_plainText
  have htrailing : (Json.Document.ofText shuffledText).trailing = false := by
    rw [document_shuffledText]
  exact ⟨o, hread, hasDistinctKeys_plainText, alike_shuffledText,
    decode_unordered hread hasDistinctKeys_plainText alike_shuffledText htrailing⟩

/-- In an object that is read all members have names, be they fields or not. -/
theorem exists_name_of_decode {depth : Nat} {members : List (Json.Lexeme String × Json.Node)}
    {stop : Option Json.Fault} {o : Object k} (h : decode k depth (.object members stop) = .ok o)
    {m : Json.Lexeme String × Json.Node} (hm : m ∈ members) : ∃ name, m.1.value = .ok name := by
  obtain ⟨left, slots, -, hmembers, -⟩ := Record.strict_object_eq_ok_iff.mp h
  obtain ⟨-, hpasses, -⟩ := Record.members_eq_ok_iff_given.mp hmembers
  obtain ⟨name, hname, -⟩ := hpasses m hm
  exact ⟨name, hname⟩

/-- The object with one more member, whose name is half of a character. -/
def surrogateText : String :=
  "\x7b\"\\ud800\":null,\"apiVersion\":null,\"metadata\":\x7b\"name\":\"x\",\"uid\":null\x7d," ++
    "\"spec\":\x7b\"foo\":\"hello\",\"bar\":true\x7d," ++
    "\"status\":\x7b\"state\":\"Odd\",\"message\":\"\"\x7d\x7d"

theorem document_surrogateText : Json.Document.ofText surrogateText =
    ⟨.object ((⟨.error .endOfSurrogatePair, none⟩, .null) ::
      (.ofValue "apiVersion", .null) :: plainMembers) none, false⟩ := by
  unfold surrogateText Json.Document.ofText
  simp only [String.toList_append]
  rw [String.toList_ofList, String.toList_ofList, String.toList_ofList]
  cbv

/-- A well-formed member that is no field, and for which the object is refused. -/
theorem surrogate_name_refused : ∃ (o : Object .test) (key : Json.Lexeme String)
    (members : List (Json.Lexeme String × Json.Node)),
    ofText (decode .test) plainText = .ok o ∧
      (Json.Document.ofText plainText).root.hasDistinctKeys = true ∧
      Json.Document.ofText plainText = ⟨.object members none, false⟩ ∧
      Json.Document.ofText surrogateText = ⟨.object ((key, .null) :: members) none, false⟩ ∧
      (Json.Document.ofText surrogateText).root.WellFormed ∧
      (record .test Status.decode).fieldOf? key = none ∧
      ∀ o' : Object .test, ofText (decode .test) surrogateText ≠ .ok o' := by
  obtain ⟨o, hread⟩ := exists_of_plainText
  refine ⟨o, _, _, hread, hasDistinctKeys_plainText, document_plainText, document_surrogateText,
    ?_, rfl, fun o' h => ?_⟩
  · rw [document_surrogateText, ← Json.Node.skip_eq_ok_iff]
    rfl
  · have hroot := ofText_eq_ok h
    rw [document_surrogateText] at hroot
    obtain ⟨name, hname⟩ := exists_name_of_decode hroot List.mem_cons_self
    cases hname

end Object

end CustomResource
