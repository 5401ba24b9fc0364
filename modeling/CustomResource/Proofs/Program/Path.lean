import CustomResource.Proofs.Program.Calls

/-!
# How far a program has come

`Program.run` and `Program.trace` follow a program to its end, in one world. When programs run side
by side each of them has come only so far, and what it is given depends on the others. So here a
program is followed through any results of its actions, to any point.

## Main definitions

* `Program.Leads`: a program comes, by some actions with their results, to what is left of it.
* `Program.Yields`: whatever its actions result in, the value of a program is of some sort.

## Main results

* `Program.Leads.bind_cases`, `Leads.bind_except_cases`: how far one program after another has come.
* `Program.Performs.of_leads`, `Yields.of_leads`: what holds of a program holds of what is left.
-/

namespace CustomResource.Program

variable {α β : Type}

/-- A program comes to what is left of it, by actions that have been performed with these
results. -/
inductive Leads : Program α → List Performed → Program α → Prop
  | refl (p : Program α) : Leads p [] p
  | step {action : Action} {next : action.Result → Program α} {result : action.Result}
    {path : List Performed} {left : Program α} (h : Leads (next result) path left) :
    Leads (.perform action next) (⟨action, result⟩ :: path) left

namespace Leads

variable {p left : Program α} {path : List Performed}

/-- One more action. -/
theorem perform {action : Action} {next : action.Result → Program α}
    (h : Leads p path (.perform action next)) (result : action.Result) :
    Leads p (path ++ [⟨action, result⟩]) (next result) := by
  generalize hleft : Program.perform action next = left at h
  induction h with
  | refl p =>
    subst hleft
    exact .step (.refl _)
  | step _ ih => exact .step (ih hleft)

/-- **How far one program after another has come**: it is at an action of the first one, or the
first one is over. -/
theorem bind_cases {f : α → Program β} {left : Program β} (h : Leads (p >>= f) path left) :
    (∃ action next, Leads p path (.perform action next) ∧ left = .perform action next >>= f) ∨
    ∃ path₁ value path₂, path = path₁ ++ path₂ ∧ Leads p path₁ (.done value) ∧
      Leads (f value) path₂ left := by
  induction p generalizing path with
  | done value => exact Or.inr ⟨[], value, path, rfl, .refl _, h⟩
  | perform action next ih =>
    change Leads (.perform action fun result => next result >>= f) path left at h
    cases h with
    | refl => exact Or.inl ⟨action, next, .refl _, rfl⟩
    | @step _ _ result path _ h =>
      obtain ⟨action', next', hp, hleft⟩ | ⟨path₁, value, path₂, rfl, hp, hf⟩ := ih result h
      · exact Or.inl ⟨action', next', .step hp, hleft⟩
      · exact Or.inr ⟨⟨action, result⟩ :: path₁, value, path₂, rfl, .step hp, hf⟩

/-- A program that is over after one that goes on with its value. -/
theorem bind_done {f : α → Program β} {value : β} (h : Leads (p >>= f) path (.done value)) :
    ∃ path₁ value' path₂, path = path₁ ++ path₂ ∧ Leads p path₁ (.done value') ∧
      Leads (f value') path₂ (.done value) := by
  obtain ⟨action, next, -, hleft⟩ | hover := h.bind_cases
  · exact nomatch hleft
  · exact hover

/-- How far a program that may fail has come, and one that goes on with its value. -/
theorem bind_except_cases {ε : Type} {t : ExceptT ε Program α} {f : α → ExceptT ε Program β}
    {left : Program (Except ε β)} (h : Leads (t >>= f).run path left) :
    (∃ action next, Leads t.run path (.perform action next) ∧ ∃ next', left =
      .perform action next') ∨
    (∃ e, Leads t.run path (.done (.error e)) ∧ left = .done (.error e)) ∨
    ∃ path₁ value path₂, path = path₁ ++ path₂ ∧ Leads t.run path₁ (.done (.ok value)) ∧
      Leads (f value).run path₂ left := by
  rw [ExceptT.run_bind] at h
  obtain ⟨action, next, ht, hleft⟩ | ⟨path₁, outcome, path₂, rfl, ht, hf⟩ := h.bind_cases
  · exact Or.inl ⟨action, next, ht, _, hleft⟩
  · cases outcome with
    | error e =>
      cases hf with
      | refl => exact Or.inr (Or.inl ⟨e, by rwa [List.append_nil], rfl⟩)
    | ok value => exact Or.inr (Or.inr ⟨path₁, value, path₂, rfl, ht, hf⟩)

end Leads

/-- A program that is over stays so. -/
theorem Leads.of_done {value : α} {left : Program α} {path : List Performed}
    (h : Leads (.done value) path left) : path = [] ∧ left = .done value := by
  cases h with
  | refl => exact ⟨rfl, rfl⟩

/-- How a program has come further than to some point. -/
theorem Leads.of_append {p middle left : Program α} {path₁ path₂ : List Performed}
    (h₁ : Leads p path₁ middle) (h : Leads p (path₁ ++ path₂) left) : Leads middle path₂ left := by
  induction h₁ with
  | refl p => exact h
  | step _ ih =>
    cases h with
    | step h => exact ih h

/-! ### What holds of what is left -/

theorem Performs.of_leads {P : Action → Prop} {p left : Program α} {path : List Performed}
    (hp : p.Performs P) (h : Leads p path left) :
    (∀ x ∈ path, P x.action) ∧ left.Performs P := by
  induction h with
  | refl p => exact ⟨by simp, hp⟩
  | step _ ih =>
    cases hp with
    | perform haction hnext =>
      obtain ⟨hpath, hleft⟩ := ih (hnext _)
      exact ⟨List.forall_mem_cons.mpr ⟨haction, hpath⟩, hleft⟩

/-- A program that is at an action which a first one does not perform is past the first one. -/
theorem Performs.past {P : Action → Prop} {p : Program α} (hp : p.Performs P) {action : Action}
    (haction : ¬ P action) {next : action.Result → Program β} {f : α → Program β}
    {path : List Performed} (h : Leads (p >>= f) path (.perform action next)) :
    ∃ path₁ value path₂, path = path₁ ++ path₂ ∧ Leads p path₁ (.done value) ∧
      Leads (f value) path₂ (.perform action next) := by
  obtain ⟨action', next', hfirst, hleft⟩ | hpast := h.bind_cases
  · obtain ⟨rfl, -⟩ := Program.perform.inj hleft
    cases (hp.of_leads hfirst).2 with
    | perform haction' _ => exact absurd haction' haction
  · exact hpast

/-- Whatever its actions result in, the value of a program is of some sort. -/
inductive Yields (Q : α → Prop) : Program α → Prop
  | done {value : α} (h : Q value) : Yields Q (.done value)
  | perform {action : Action} {next : action.Result → Program α}
    (hnext : ∀ result, Yields Q (next result)) : Yields Q (.perform action next)

namespace Yields

variable {Q : α → Prop} {p : Program α}

theorem any (p : Program α) : p.Yields fun _ => True := by
  induction p with
  | done value => exact .done trivial
  | perform action next ih => exact .perform ih

theorem bind (hp : p.Yields Q) {f : α → Program β} {R : β → Prop}
    (hf : ∀ value, Q value → (f value).Yields R) : (p >>= f).Yields R := by
  change (p.bind f).Yields R
  induction hp with
  | done h => exact hf _ h
  | perform _ ih => exact .perform ih

theorem of_leads {left : Program α} {path : List Performed} (hp : p.Yields Q)
    (h : Leads p path left) : left.Yields Q := by
  induction h with
  | refl p => exact hp
  | step _ ih =>
    cases hp with
    | perform hnext => exact ih (hnext _)

theorem of_leads_done {value : α} {path : List Performed} (hp : p.Yields Q)
    (h : Leads p path (.done value)) : Q value := by
  cases hp.of_leads h with
  | done hvalue => exact hvalue

/-- What comes after a program needs to perform actions of some sort only for its values. -/
theorem performs_bind {P : Action → Prop} (hp : p.Yields Q) (hperforms : p.Performs P)
    {f : α → Program β} (hf : ∀ value, Q value → (f value).Performs P) :
    (p >>= f).Performs P := by
  change (p.bind f).Performs P
  induction hp with
  | done h => exact hf _ h
  | perform _ ih =>
    cases hperforms with
    | perform haction hnext => exact .perform haction fun result => ih result (hnext result)

end Yields

theorem Tells.yields {p : Program α} {value : α} (h : Tells p value) {Q : α → Prop}
    (hvalue : Q value) : p.Yields Q := by
  induction h with
  | done value => exact .done hvalue
  | log _ ih => exact .perform fun _ => ih hvalue

/-- A call yields what the answer settles. -/
theorem Calls.yields {γ : Type} {r : Request} {read : Answer → Except Api.Error γ}
    {settle : Except Api.Error γ → α} {p : Program α} (h : Calls r read settle p) {Q : α → Prop}
    (hsettle : ∀ outcome, Q (settle outcome)) : p.Yields Q := by
  obtain ⟨finish, rfl, hfinish⟩ := h
  exact (Yields.any _).bind fun outcome _ => (hfinish outcome).yields (hsettle outcome)

end CustomResource.Program
