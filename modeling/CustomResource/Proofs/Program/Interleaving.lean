import Mathlib.Logic.Function.Basic
import CustomResource.Proofs.Program.Path

/-!
# Programs side by side

Several programs that share one world take turns: at each turn one of them performs its next action,
in the state in which the others have left the world. Nothing is said about who comes when, so a
statement about all turns that programs may take is one about all interleavings. Each program sees
only its own part of them, which is a way that it may come alone.

## Main definitions

* `Program.Turn`: one program performs one action.
* `Program.Interleaves`: programs come to what is left of them by some turns.
* `Program.own`: what one program has performed in them.

## Main results

* `Program.Interleaves.leads`: how far one of the programs has come.
* `Program.Interleaves.of_append`: some turns after others.
-/

namespace CustomResource.Program

variable {ι α σ : Type}

/-- A turn of programs that run side by side: one of them performs its next action, and changes the
state of the world. -/
structure Turn (ι σ : Type) where
  program : ι
  performed : Performed
  before : σ
  after : σ

section own

variable [DecidableEq ι] {i : ι}

/-- What one program has performed. -/
def own (i : ι) (turns : List (Turn ι σ)) : List Performed :=
  (turns.filter fun t => t.program = i).map Turn.performed

theorem own_cons (i : ι) (t : Turn ι σ) (turns : List (Turn ι σ)) :
    own i (t :: turns) = if t.program = i then t.performed :: own i turns else own i turns := by
  by_cases h : t.program = i <;> simp [own, h]

theorem own_eq_nil_iff {turns : List (Turn ι σ)} :
    own i turns = [] ↔ ∀ t ∈ turns, t.program ≠ i := by
  simp [own]

/-- If a program has performed one action, then there is one turn of it. -/
theorem exists_of_own_eq_singleton {turns : List (Turn ι σ)} {x : Performed}
    (h : own i turns = [x]) : ∃ first t rest, turns = first ++ t :: rest ∧ t.program = i ∧
      t.performed = x ∧ ∀ u ∈ rest, u.program ≠ i := by
  obtain ⟨t, hfilter, hperformed⟩ := List.map_eq_singleton_iff.mp h
  obtain ⟨first, rest, hturns, -, hprogram, hrest⟩ := List.filter_eq_cons_iff.mp hfilter
  refine ⟨first, t, rest, hturns, of_decide_eq_true hprogram, hperformed, ?_⟩
  simpa using hrest

end own

variable [DecidableEq ι]

/-- Programs that run side by side come, by these turns, to what is left of them and to a state of
the world. -/
inductive Interleaves (meaning : Meaning σ) :
    (ι → Program α) → σ → List (Turn ι σ) → (ι → Program α) → σ → Prop
  | refl (programs : ι → Program α) (s : σ) : Interleaves meaning programs s [] programs s
  | turn {programs left : ι → Program α} {s s' : σ} {turns : List (Turn ι σ)} (i : ι)
    {action : Action} {next : action.Result → Program α}
    (hnext : programs i = .perform action next)
    (h : Interleaves meaning (Function.update programs i (next (meaning action s).1))
      (meaning action s).2 turns left s') :
    Interleaves meaning programs s
      (⟨i, ⟨action, (meaning action s).1⟩, s, (meaning action s).2⟩ :: turns) left s'

namespace Interleaves

variable {meaning : Meaning σ} {programs left : ι → Program α} {s s' : σ}
  {turns turns' : List (Turn ι σ)}

/-- **Each program comes some way of its own.** -/
theorem leads (h : Interleaves meaning programs s turns left s') (i : ι) :
    Leads (programs i) (own i turns) (left i) := by
  induction h with
  | refl programs s => exact .refl _
  | @turn programs left s s' turns j action next hnext _ ih =>
    rw [own_cons]
    by_cases hj : j = i
    · subst hj
      rw [Function.update_self] at ih
      rw [if_pos rfl, hnext]
      exact .step ih
    · rwa [if_neg hj, ← Function.update_of_ne (Ne.symm hj) _ programs]

/-- A program that is over takes no more turns. -/
theorem of_done (h : Interleaves meaning programs s turns left s') {i : ι} {value : α}
    (hi : programs i = .done value) : (∀ t ∈ turns, t.program ≠ i) ∧ left i = .done value := by
  have hleads := h.leads i
  rw [hi] at hleads
  obtain ⟨hown, hleft⟩ := hleads.of_done
  exact ⟨own_eq_nil_iff.mp hown, hleft⟩

/-- Turns after other ones. The induction is on the turns that come first. -/
theorem of_append (h : Interleaves meaning programs s (turns ++ turns') left s') :
    ∃ middle m, Interleaves meaning programs s turns middle m ∧
      Interleaves meaning middle m turns' left s' := by
  induction turns generalizing programs s with
  | nil => exact ⟨programs, s, .refl _ _, h⟩
  | cons t turns ih =>
    cases h with
    | turn i hnext h =>
      obtain ⟨middle, m, hfirst, hrest⟩ := ih h
      exact ⟨middle, m, .turn i hnext hfirst, hrest⟩

end Interleaves

end CustomResource.Program
