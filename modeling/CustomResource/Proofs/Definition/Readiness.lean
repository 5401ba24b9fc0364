import CustomResource.Definition.Readiness

/-!
# What the verdict on a definition says

`Definition.readiness` goes through the conditions in their order: one that says that the definition
is established ends the walk, and one that tells of a conflict replaces what the walk has come to so
far. What it comes to is nevertheless a fact about the conditions as a whole. Only the reason of a
conflict depends on where the conditions stand.

## Main definitions

* `Definition.conditions`: the conditions of a definition.
* `Condition.IsEstablished`, `Condition.IsConflict`: the two sorts of conditions that count.
* `Readiness.withoutReason`: a verdict up to the reason of a conflict.

## Main results

* `Readiness.ofConditions_eq`: what the walk comes to, from anywhere on.
* `Definition.readiness_eq_established_iff`, `readiness_eq_namesConflict_iff`,
  `readiness_eq_pending_iff`: when each verdict is given.
* `Definition.readiness_told_by_conditions`: the same together, with what does not change a verdict.
-/

namespace CustomResource

namespace Definition

/-- The conditions of a definition. There are none without a status, or without a list in it. -/
def conditions (d : Definition) : List Condition :=
  (d.status.bind (·.conditions)).getD []

namespace Condition

/-- The condition says that the definition is established. -/
def IsEstablished (c : Condition) : Prop := c.type = "Established" ∧ c.status = "True"

/-- The condition says that the names of the definition are taken. -/
def IsConflict (c : Condition) : Prop := c.type = "NamesAccepted" ∧ c.status = "False"

instance (c : Condition) : Decidable c.IsEstablished := inferInstanceAs (Decidable (_ ∧ _))

instance (c : Condition) : Decidable c.IsConflict := inferInstanceAs (Decidable (_ ∧ _))

/-- The reason that a condition gives, empty if it gives none. -/
def reasonText (c : Condition) : String := c.reason.getD ""

end Condition

namespace Readiness

/-! ### The walk -/

theorem ofConditions_cons_of_isEstablished {sofar : Readiness} {c : Condition}
    {cs : List Condition} (h : c.IsEstablished) : ofConditions sofar (c :: cs) = .established := by
  rw [ofConditions]
  exact if_pos h

theorem ofConditions_cons_of_isConflict {sofar : Readiness} {c : Condition} {cs : List Condition}
    (hnot : ¬ c.IsEstablished) (h : c.IsConflict) :
    ofConditions sofar (c :: cs) = ofConditions (.namesConflict c.reasonText) cs := by
  rw [ofConditions]
  exact (if_neg hnot).trans (if_pos h)

theorem ofConditions_cons_of_not {sofar : Readiness} {c : Condition} {cs : List Condition}
    (hnot : ¬ c.IsEstablished) (h : ¬ c.IsConflict) :
    ofConditions sofar (c :: cs) = ofConditions sofar cs := by
  rw [ofConditions]
  exact (if_neg hnot).trans (if_neg h)

/-- What the last conflict among some conditions comes to, or else what was known before them. -/
def ofLastConflict (sofar : Readiness) (cs : List Condition) : Readiness :=
  match (cs.filter (·.IsConflict)).getLast? with
  | some c => .namesConflict c.reasonText
  | none => sofar

theorem ofLastConflict_cons_of_isConflict {sofar : Readiness} {c : Condition} {cs : List Condition}
    (h : c.IsConflict) :
    ofLastConflict sofar (c :: cs) = ofLastConflict (.namesConflict c.reasonText) cs := by
  rw [ofLastConflict, ofLastConflict, List.filter_cons_of_pos (by simpa using h),
    List.getLast?_cons]
  cases (cs.filter (·.IsConflict)).getLast? <;> rfl

theorem ofLastConflict_cons_of_not {sofar : Readiness} {c : Condition} {cs : List Condition}
    (h : ¬ c.IsConflict) : ofLastConflict sofar (c :: cs) = ofLastConflict sofar cs := by
  rw [ofLastConflict, List.filter_cons_of_neg (by simpa using h)]
  rfl

/-- **What the walk comes to**, from anywhere on. A conflict that has been met so far is what is
left where none follows, so the induction is for all that may have been met. -/
theorem ofConditions_eq (sofar : Readiness) (cs : List Condition) :
    ofConditions sofar cs =
      if ∃ c ∈ cs, c.IsEstablished then .established else ofLastConflict sofar cs := by
  induction cs generalizing sofar with
  | nil => rw [if_neg (by simp)]; rfl
  | cons c cs ih =>
    by_cases hestablished : c.IsEstablished
    · rw [ofConditions_cons_of_isEstablished hestablished, if_pos ⟨c, by simp, hestablished⟩]
    · have hexists : (∃ c' ∈ c :: cs, c'.IsEstablished) ↔ ∃ c' ∈ cs, c'.IsEstablished := by
        simp [hestablished]
      simp only [hexists]
      by_cases hconflict : c.IsConflict
      · rw [ofConditions_cons_of_isConflict hestablished hconflict, ih,
          ofLastConflict_cons_of_isConflict hconflict]
      · rw [ofConditions_cons_of_not hestablished hconflict, ih,
          ofLastConflict_cons_of_not hconflict]

/-! ### The last conflict -/

theorem ofLastConflict_ne_established {cs : List Condition} :
    ofLastConflict .pending cs ≠ .established := by
  rw [ofLastConflict]
  split <;> simp

theorem ofLastConflict_eq_pending_iff {cs : List Condition} :
    ofLastConflict .pending cs = .pending ↔ ∀ c ∈ cs, ¬ c.IsConflict := by
  have hnone : (cs.filter (·.IsConflict)).getLast? = none ↔ ∀ c ∈ cs, ¬ c.IsConflict := by
    rw [List.getLast?_eq_none_iff, List.filter_eq_nil_iff]
    simp
  rw [← hnone, ofLastConflict]
  split
  · next c hlast => simp [hlast]
  · next hlast => simp [hlast]

/-- Some conditions of which this is the last one that tells of a conflict. -/
def IsLastConflict (c : Condition) (cs : List Condition) : Prop :=
  ∃ before after, cs = before ++ c :: after ∧ c.IsConflict ∧ ∀ c' ∈ after, ¬ c'.IsConflict

theorem getLast?_filter_isConflict_iff {c : Condition} {cs : List Condition} :
    (cs.filter (·.IsConflict)).getLast? = some c ↔ IsLastConflict c cs := by
  rw [List.getLast?_eq_some_iff]
  constructor
  · rintro ⟨others, hothers⟩
    obtain ⟨front, rest, rfl, -, hrest⟩ := List.filter_eq_append_iff.mp hothers
    obtain ⟨middle, after, rfl, -, hconflict, hafter⟩ := List.filter_eq_cons_iff.mp hrest
    refine ⟨front ++ middle, after, (List.append_assoc ..).symm, by simpa using hconflict, ?_⟩
    simpa using List.filter_eq_nil_iff.mp hafter
  · rintro ⟨before, after, rfl, hconflict, hafter⟩
    have hnone : after.filter (·.IsConflict) = [] :=
      List.filter_eq_nil_iff.mpr (by simpa using hafter)
    refine ⟨before.filter (·.IsConflict), ?_⟩
    rw [List.filter_append, List.filter_cons_of_pos (by simpa using hconflict), hnone]

theorem ofLastConflict_eq_namesConflict_iff {reason : String} {cs : List Condition} :
    ofLastConflict .pending cs = .namesConflict reason ↔
      ∃ c, IsLastConflict c cs ∧ reason = c.reasonText := by
  simp only [← getLast?_filter_isConflict_iff, ofLastConflict]
  split
  · next c hlast => simp [hlast, eq_comm]
  · next hlast => simp [hlast]

/-- A verdict up to the reason of a conflict. -/
def withoutReason : Readiness → Readiness
  | .namesConflict _ => .namesConflict ""
  | verdict => verdict

end Readiness

open Readiness

/-! ### The verdict -/

variable {d d' : Definition}

theorem readiness_eq_established_iff :
    d.readiness = .established ↔ ∃ c ∈ d.conditions, c.IsEstablished := by
  change ofConditions .pending d.conditions = _ ↔ _
  rw [ofConditions_eq]
  split
  · next h => exact iff_of_true rfl h
  · next h => exact iff_of_false ofLastConflict_ne_established h

theorem readiness_eq_of_not_established (h : ¬ ∃ c ∈ d.conditions, c.IsEstablished) :
    d.readiness = ofLastConflict .pending d.conditions :=
  (ofConditions_eq .pending d.conditions).trans (if_neg h)

theorem readiness_eq_namesConflict_iff {reason : String} :
    d.readiness = .namesConflict reason ↔ (¬ ∃ c ∈ d.conditions, c.IsEstablished) ∧
      ∃ c, IsLastConflict c d.conditions ∧ reason = c.reasonText := by
  by_cases h : ∃ c ∈ d.conditions, c.IsEstablished
  · simp [readiness_eq_established_iff.mpr h, h]
  · rw [readiness_eq_of_not_established h, ofLastConflict_eq_namesConflict_iff]
    exact (and_iff_right h).symm

theorem readiness_eq_pending_iff :
    d.readiness = .pending ↔ ∀ c ∈ d.conditions, ¬ c.IsEstablished ∧ ¬ c.IsConflict := by
  by_cases h : ∃ c ∈ d.conditions, c.IsEstablished
  · obtain ⟨c, hc, hestablished⟩ := h
    rw [readiness_eq_established_iff.mpr ⟨c, hc, hestablished⟩]
    exact iff_of_false (by simp) fun hall => (hall c hc).1 hestablished
  · rw [readiness_eq_of_not_established h, ofLastConflict_eq_pending_iff]
    have hnone : ∀ c ∈ d.conditions, ¬ c.IsEstablished := by simpa using h
    exact forall₂_congr fun c hc => (and_iff_right (hnone c hc)).symm

/-- The verdict does not depend on the order of the conditions, but for the reason of a conflict. -/
theorem withoutReason_of_perm (h : d.conditions.Perm d'.conditions) :
    d'.readiness.withoutReason = d.readiness.withoutReason := by
  cases hverdict : d.readiness with
  | established =>
    obtain ⟨c, hc, hestablished⟩ := readiness_eq_established_iff.mp hverdict
    rw [readiness_eq_established_iff.mpr ⟨c, h.mem_iff.mp hc, hestablished⟩]
  | pending =>
    have hall := readiness_eq_pending_iff.mp hverdict
    rw [readiness_eq_pending_iff.mpr fun c hc => hall c (h.mem_iff.mpr hc)]
  | namesConflict reason =>
    obtain ⟨hnot, c, ⟨before, after, hsplit, hconflict, -⟩, -⟩ :=
      readiness_eq_namesConflict_iff.mp hverdict
    have hc : c ∈ d'.conditions := h.mem_iff.mp (by simp [hsplit])
    -- what is left for the other definition, which has the conflict and is not established
    cases hverdict' : d'.readiness with
    | established =>
      obtain ⟨c', hc', hestablished⟩ := readiness_eq_established_iff.mp hverdict'
      exact absurd ⟨c', h.mem_iff.mpr hc', hestablished⟩ hnot
    | pending => exact absurd hconflict (readiness_eq_pending_iff.mp hverdict' c hc).2
    | namesConflict reason' => rfl

/-- **What the verdict says.** A definition is ready if one of its conditions says so, wherever that
stands and whatever the others say. Otherwise the last conflict counts, with its reason, and where
there is none the verdict is open. So a different order changes no more than the reason, and no
further condition makes an established definition anything else. -/
theorem readiness_told_by_conditions (d : Definition) :
    (d.readiness = .established ↔ ∃ c ∈ d.conditions, c.IsEstablished) ∧
    (∀ reason, d.readiness = .namesConflict reason ↔
      (¬ ∃ c ∈ d.conditions, c.IsEstablished) ∧
        ∃ c, IsLastConflict c d.conditions ∧ reason = c.reasonText) ∧
    (d.readiness = .pending ↔
      (¬ ∃ c ∈ d.conditions, c.IsEstablished) ∧ ¬ ∃ c ∈ d.conditions, c.IsConflict) ∧
    (∀ d' : Definition, d.conditions.Perm d'.conditions →
      d'.readiness.withoutReason = d.readiness.withoutReason) ∧
    ∀ d' : Definition, d.conditions ⊆ d'.conditions → d.readiness = .established →
      d'.readiness = .established := by
  refine ⟨readiness_eq_established_iff, fun _ => readiness_eq_namesConflict_iff, ?_,
    fun _ => withoutReason_of_perm, fun d' hmore hverdict => ?_⟩
  · rw [readiness_eq_pending_iff]
    simp only [not_exists, not_and, ← forall_and]
  · obtain ⟨c, hc, hestablished⟩ := readiness_eq_established_iff.mp hverdict
    exact readiness_eq_established_iff.mpr ⟨c, hmore hc, hestablished⟩

/-- The definition of a kind with some conditions. -/
def reported (cs : List Condition) : Definition :=
  { Kind.jinghzhu.definition with status := some { conditions := some cs } }

/-- Two conflicts with a condition between them that is not fulfilled. -/
def conflicts : List Condition :=
  [ { type := "NamesAccepted", status := "False", reason := some "PluralConflict" },
    { type := "Established", status := "False", reason := some "NotAccepted" },
    { type := "NamesAccepted", status := "False" } ]

/-- The condition of a definition that is ready. -/
def ready : Condition := { type := "Established", status := "True" }

/-- Of two conflicts the last one counts, which gives no reason here; in the other order it is still
a conflict, and one more condition makes both of no account. -/
theorem readiness_told_by_conflicts :
    (reported conflicts).readiness = .namesConflict "" ∧
    (reported conflicts.reverse).readiness.withoutReason = .namesConflict "" ∧
    (reported (ready :: conflicts)).readiness = .established := by
  obtain ⟨-, hconflict, -, hperm, -⟩ := readiness_told_by_conditions (reported conflicts)
  obtain ⟨hestablished, -, -, -, hmore⟩ := readiness_told_by_conditions (reported [ready])
  have hverdict : (reported conflicts).readiness = .namesConflict "" := by
    refine (hconflict "").mpr ⟨by decide, _, ⟨conflicts.take 2, [], rfl, ?_, ?_⟩, rfl⟩
    · decide
    · simp
  refine ⟨hverdict, ?_, hmore _ ?_ (hestablished.mpr ⟨ready, by decide⟩)⟩
  · rw [hperm (reported conflicts.reverse) (List.reverse_perm conflicts).symm, hverdict]
    rfl
  · exact List.cons_subset_cons _ (List.nil_subset _)

end Definition

end CustomResource
