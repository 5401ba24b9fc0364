import CustomResource.Json.Basic
import Mathlib.Tactic.SplitIfs

/-!
# Members in the order of their keys

A map is kept in the order of its keys while it is read. What has that order is the same after it
has been put into a map once more.

## Main definitions

* `Json.KeysSorted`: the keys of some members increase.

## Main results

* `Json.KeysSorted.putSorted`: a member put among such members leaves them in order.
* `Json.putSorted_of_lt`: a key beyond all others comes last.
-/

namespace CustomResource.Json

variable {α : Type}

/-- The keys of some members increase. -/
def KeysSorted (members : List (String × α)) : Prop := members.Pairwise fun m m' => m.1 < m'.1

theorem mem_putSorted {key : String} {value : α} {members : List (String × α)} {m : String × α}
    (h : m ∈ putSorted key value members) : m = (key, value) ∨ m ∈ members := by
  induction members with
  | nil => exact Or.inl (List.mem_singleton.mp h)
  | cons m' members ih =>
    rw [putSorted] at h
    split_ifs at h with hlt heq
    · exact List.mem_cons.mp h
    · exact (List.mem_cons.mp h).imp_right (List.mem_cons_of_mem _)
    · obtain rfl | h := List.mem_cons.mp h
      · exact Or.inr List.mem_cons_self
      · exact (ih h).imp_right (List.mem_cons_of_mem _)

theorem KeysSorted.putSorted {members : List (String × α)} (h : KeysSorted members) (key : String)
    (value : α) : KeysSorted (putSorted key value members) := by
  induction members with
  | nil => exact List.pairwise_singleton _ _
  | cons m members ih =>
    obtain ⟨hfirst, hrest⟩ := List.pairwise_cons.mp h
    rw [Json.putSorted]
    split_ifs with hlt heq
    · refine List.pairwise_cons.mpr ⟨fun m' hm' => ?_, h⟩
      obtain rfl | hm' := List.mem_cons.mp hm'
      · exact hlt
      · exact String.lt_trans hlt (hfirst m' hm')
    · subst heq
      exact List.pairwise_cons.mpr ⟨hfirst, hrest⟩
    · refine List.pairwise_cons.mpr ⟨fun m' hm' => ?_, ih hrest⟩
      obtain rfl | hm' := mem_putSorted hm'
      · exact Std.lt_of_le_of_ne hlt (Ne.symm heq)
      · exact hfirst m' hm'

/-- A key beyond all others comes last. -/
theorem putSorted_of_lt {members : List (String × α)} {key : String}
    (h : ∀ m ∈ members, m.1 < key) (value : α) :
    putSorted key value members = members ++ [(key, value)] := by
  induction members with
  | nil => rfl
  | cons m members ih =>
    obtain ⟨hfirst, hrest⟩ := List.forall_mem_cons.mp h
    have hne : key ≠ m.1 := by
      rintro rfl
      exact String.lt_irrefl _ hfirst
    rw [putSorted, if_neg (String.lt_asymm hfirst), if_neg hne, ih hrest]
    rfl

theorem KeysSorted.lt_of_append {done members : List (String × α)} {m : String × α}
    (h : KeysSorted (done ++ m :: members)) : ∀ m' ∈ done, m'.1 < m.1 :=
  fun m' hm' => (List.pairwise_append.mp h).2.2 m' hm' m List.mem_cons_self

end CustomResource.Json
