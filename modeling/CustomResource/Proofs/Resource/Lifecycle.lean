import CustomResource.Proofs.Decode.Fields
import CustomResource.Proofs.Resource.Reencoding

/-!
# Which documents wait for the controller

Whether an object needs processing is a question about its status, which may be missing in several
ways and may name its state in two. Here the question is put to the document, and answered for every
document from which an object can be read. The places of a document are those of `strict` records:
the members of an object, or the items of an array.

## Main definitions

* `Json.Node.variantName?`: the name in the document of a value of several names.
* `Json.Node.NamesState`: the document of an object names a state.
* `Json.Node.Waits`: the document of an object waits for the controller.

## Main results

* `Status.state_of_decode`: the state of a status that has been read.
* `Object.needsProcessing_iff_waits`: objects that need processing are those whose documents wait.
* `Object.not_needsProcessing_iff`: the documents of all others name another state.
-/

namespace CustomResource

open Decoder

/-! ### Documents -/

namespace Json.Node

/-- The name in the document of a value of several names: a text, or the only key of an object that
has a null under it. -/
def variantName? : Json.Node → Option String
  | .string lexeme => lexeme.value.toOption
  | .object [(key, .null)] none => key.value.toOption
  | _ => none

/-- The document of an object has a status in which the state is named. -/
def NamesState (root : Json.Node) (name : String) : Prop :=
  ∃ status state, root.part? "status" 2 = some status ∧ status.part? "state" 0 = some state ∧
    state.variantName? = some name

/-- The document of an object waits for the controller: there is no status in it or a null, no
state in the status, or one of the two states in which nothing has been done. -/
inductive Waits (root : Json.Node) : Prop
  | noStatus (h : root.part? "status" 2 = none)
  | nullStatus (h : root.part? "status" 2 = some .null)
  | noState {status : Json.Node} (h : root.part? "status" 2 = some status)
    (hstate : status.part? "state" 0 = none)
  | named {name : String} (h : root.NamesState name) (hname : name = "Created" ∨ name = "Pending")

theorem NamesState.unique {root : Json.Node} {name name' : String} (h : root.NamesState name)
    (h' : root.NamesState name') : name = name' := by
  obtain ⟨status, state, hstatus, hstate, hname⟩ := h
  obtain ⟨status', state', hstatus', hstate', hname'⟩ := h'
  obtain rfl := Option.some.inj (hstatus.symm.trans hstatus')
  obtain rfl := Option.some.inj (hstate.symm.trans hstate')
  exact Option.some.inj (hname.symm.trans hname')

/-- A document in which a state is named waits only for the sake of the name. -/
theorem NamesState.waits_iff {root : Json.Node} {name : String} (h : root.NamesState name) :
    root.Waits ↔ name = "Created" ∨ name = "Pending" := by
  refine ⟨fun hwaits => ?_, .named h⟩
  obtain ⟨status, state, hstatus, hstate, -⟩ := id h
  cases hwaits with
  | noStatus hnone => simp [hnone] at hstatus
  | nullStatus hnull =>
    obtain rfl := Option.some.inj (hnull.symm.trans hstatus)
    exact nomatch hstate
  | noState hstatus' hnone =>
    obtain rfl := Option.some.inj (hstatus.symm.trans hstatus')
    simp [hnone] at hstate
  | named h' hname => exact h'.unique h ▸ hname

end Json.Node

/-! ### States -/

/-- A value of several names is read from its name. -/
theorem Decoder.variant_eq_ok {α : Type} {ofName : String → Except DecodeError α} {depth : Nat}
    {node : Json.Node} {a : α} (h : variant ofName depth node = .ok a) :
    ∃ name, node.variantName? = some name ∧ ofName name = .ok a := by
  cases node with
  | string lexeme =>
    simp only [variant, variantWith] at h
    cases hvalue : lexeme.value with
    | error f => simp [key, hvalue, Except.mapError, bind, Except.bind] at h
    | ok name =>
      refine ⟨name, by rw [Json.Node.variantName?, hvalue]; rfl, ?_⟩
      simpa [key, hvalue, Except.mapError, bind, Except.bind] using h
  | object members stop =>
    simp only [variant, variantWith] at h
    cases hdepth : descend depth with
    | error e => simp [hdepth, bind, Except.bind] at h
    | ok left =>
      cases members with
      | nil => simp [hdepth, bind, Except.bind] at h
      | cons m rest =>
        obtain ⟨lexeme, child⟩ := m
        cases hvalue : lexeme.value with
        | error f => simp [hdepth, key, hvalue, Except.mapError, bind, Except.bind] at h
        | ok name =>
          cases hname : ofName name with
          | error e => simp [hdepth, key, hvalue, hname, Except.mapError, bind, Except.bind] at h
          | ok a' =>
            simp only [hdepth, key, hvalue, hname, Except.mapError, bind, Except.bind] at h
            obtain ⟨rfl, hend⟩ : child = .null ∧ variantEnd a' rest stop = .ok a := by
              cases child <;> simp_all [nothing]
            obtain ⟨rfl, rfl, rfl⟩ : rest = [] ∧ stop = none ∧ a' = a := by
              rw [variantEnd.eq_def] at hend
              split at hend <;> simp_all
            exact ⟨name, by rw [Json.Node.variantName?, hvalue]; rfl, hname⟩
  | _ => simp [variant, variantWith] at h

/-! ### Statuses and objects -/

/-- The state of a status that has been read: the one that is named in it, or the initial one where
none is. -/
theorem Status.state_of_decode {depth : Nat} {node : Json.Node} {s : Status}
    (h : decode depth node = .ok s) :
    (node.part? "state" 0 = none ∧ s.state = .created) ∨
      ∃ state name, node.part? "state" 0 = some state ∧ state.variantName? = some name ∧
        s.state = State.ofName name := by
  obtain ⟨left, slots, -, hbuild, hparts⟩ := Record.strict_parts form.named form.nodup_fields h
  obtain rfl := Except.ok.inj hbuild
  have hstate : Option.Rel (fun part x => State.decode left part = .ok x)
      (node.part? "state" 0) (slots .state) := hparts .state
  change (_ ∧ (slots .state).getD .created = _) ∨ ∃ state name, _ ∧ _ ∧
    (slots .state).getD .created = _
  generalize node.part? "state" 0 = part, slots .state = slot at hstate ⊢
  cases hstate with
  | none => exact .inl ⟨rfl, rfl⟩
  | some hread =>
    obtain ⟨name, hname, hstate⟩ := variant_eq_ok hread
    exact .inr ⟨_, name, rfl, hname, (Except.ok.inj hstate).symm⟩

namespace Object

variable {k : Kind}

/-- The status of an object that has been read. -/
theorem status_of_decode {depth : Nat} {root : Json.Node} {o : Object k}
    (h : decode k depth root = .ok o) :
    ((root.part? "status" 2 = none ∨ root.part? "status" 2 = some .null) ∧ o.status = none) ∨
      ∃ status s left, root.part? "status" 2 = some status ∧ Status.decode left status = .ok s ∧
        o.status = some s := by
  obtain ⟨left, slots, -, hbuild, hparts⟩ :=
    Record.strict_parts (form k).named (form k).nodup_fields h
  obtain ⟨-, -, hjoin⟩ := build_eq_ok hbuild
  have hstatus : Option.Rel (fun part x => optional Status.decode left part = .ok x)
      (root.part? "status" 2) (slots .status) := hparts .status
  rw [← hjoin]
  generalize root.part? "status" 2 = part, slots .status = slot at hstatus ⊢
  cases hstatus with
  | none => exact .inl ⟨.inl rfl, rfl⟩
  | some hread =>
    obtain ⟨rfl, rfl⟩ | ⟨s, -, hchild, rfl⟩ := optional_eq_ok hread
    · exact .inl ⟨.inr rfl, rfl⟩
    · exact .inr ⟨_, s, left, rfl, hchild, rfl⟩

/-- **What an object that has been read waits for** stands in its document: it either has no state
there, and needs processing, or a state of some name, and needs processing for two of the names. -/
theorem waits_cases {depth : Nat} {root : Json.Node} {o : Object k}
    (h : decode k depth root = .ok o) :
    (root.Waits ∧ o.needsProcessing = true) ∨
      ∃ name, root.NamesState name ∧
        (o.needsProcessing = true ↔ name = "Created" ∨ name = "Pending") := by
  obtain ⟨hmissing, hnone⟩ | ⟨status, s, left, hstatus, hread, hsome⟩ := status_of_decode h
  · refine .inl ⟨?_, by rw [needsProcessing, state?, hnone]; rfl⟩
    obtain hmissing | hnull := hmissing
    · exact .noStatus hmissing
    · exact .nullStatus hnull
  · have hneeds : o.needsProcessing = true ↔ s.state = .created ∨ s.state = .pending := by
      rw [needsProcessing, state?, hsome, Option.map_some]
      cases s.state <;> simp
    obtain ⟨hmissing, hcreated⟩ | ⟨state, name, hstate, hname, hof⟩ := Status.state_of_decode hread
    · exact .inl ⟨.noState hstatus hmissing, hneeds.mpr (.inl hcreated)⟩
    · refine .inr ⟨name, ⟨status, state, hstatus, hstate, hname⟩, ?_⟩
      rw [hneeds, hof, State.ofName]
      split_ifs <;> simp_all

/-- **Objects that need processing** are those whose documents wait. -/
theorem needsProcessing_iff_waits {text : String} {o : Object k}
    (h : ofText (decode k) text = .ok o) :
    o.needsProcessing = true ↔ (Json.Document.ofText text).root.Waits := by
  obtain ⟨hwaits, hneeds⟩ | ⟨name, hnamed, hneeds⟩ := waits_cases (ofText_eq_ok h)
  · exact iff_of_true hneeds hwaits
  · rw [hneeds, hnamed.waits_iff]

/-- Objects that need no processing are those whose documents name another state. -/
theorem not_needsProcessing_iff {text : String} {o : Object k}
    (h : ofText (decode k) text = .ok o) :
    o.needsProcessing = false ↔ ∃ name, (Json.Document.ofText text).root.NamesState name ∧
      name ≠ "Created" ∧ name ≠ "Pending" := by
  rw [← Bool.not_eq_true]
  obtain ⟨hwaits, hneeds⟩ | ⟨name, hnamed, hneeds⟩ := waits_cases (ofText_eq_ok h)
  · refine iff_of_false (not_not_intro hneeds) ?_
    rintro ⟨name, hnamed, hothers⟩
    exact not_or.mpr hothers (hnamed.waits_iff.mp hwaits)
  · rw [hneeds, not_or]
    exact ⟨fun hothers => ⟨name, hnamed, hothers⟩, fun ⟨_, hnamed', hothers⟩ =>
      hnamed'.unique hnamed ▸ hothers⟩

end Object

end CustomResource
