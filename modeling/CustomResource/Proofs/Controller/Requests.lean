import CustomResource.Controller.Loop
import CustomResource.Proofs.Program.Trace
import CustomResource.Proofs.Watch.Informer

/-!
# What a controller asks for

The loop of a controller performs a handler's programs between two items, and nothing that comes of
them is looked at. So a run is determined by the observations among its items as far as its store
goes; and if what a handler asks for does not depend on the answers, so are its requests. Both are
proved here for any handler, in any world.

## Main definitions

* `Controller.observed`: the observations among some choices.
* `Controller.withoutErrors`: some choices without the errors of the watch.
* `Handler.Asks`: a handler sends certain requests about a notification, whatever is answered.

## Main results

* `Controller.observed_withoutErrors`: errors of the watch are not observations.
* `Controller.loop_spec`, `run_spec`: the ending, the store and the requests of a run.
-/

namespace CustomResource

variable {k : Kind}

/-- What a handler sends about a notification, in every world. -/
def Handler.Asks (h : Handler k) (n : Notification k) (requests : List Request) : Prop :=
  ∀ (σ : Type) (meaning : Meaning σ) (state : σ),
    (h.handle n).sent meaning state = requests

namespace Controller

/-! ### Choices -/

/-- The observations that a controller gets to see, up to the end of its run. -/
def observed : List (Selected k) → List (Observation k)
  | [] => []
  | .cancelled :: _ => []
  | .ended :: _ => []
  | .item (.error _) :: rest => observed rest
  | .item (.ok e) :: rest => e :: observed rest

/-- Whether the watch has failed. -/
def Selected.isError : Selected k → Bool
  | .item (.error _) => true
  | _ => false

/-- Some choices, with every error of the watch taken out. -/
def withoutErrors (choices : List (Selected k)) : List (Selected k) :=
  choices.filter fun c => !c.isError

theorem observed_withoutErrors (choices : List (Selected k)) :
    observed (withoutErrors choices) = observed choices := by
  induction choices with
  | nil => rfl
  | cons c rest ih =>
    cases c with
    | cancelled => rfl
    | ended => rfl
    | item i =>
      cases i with
      | error e => exact ih
      | ok e => exact congrArg (e :: ·) ih

/-! ### Steps -/

section

variable {σ : Type} (meaning : Meaning σ)

theorem sent_performAll_calls {h : Handler k} {requests : Notification k → List Request}
    {ns : List (Notification k)} (hasks : ∀ n ∈ ns, h.Asks n (requests n)) (visible : Store k)
    (state : σ) :
    (performAll h (ns.map (Step.call · visible))).sent meaning state = ns.flatMap requests := by
  induction ns generalizing state with
  | nil => rfl
  | cons n rest ih =>
    obtain ⟨hn, hrest⟩ := List.forall_mem_cons.mp hasks
    rw [List.map_cons, performAll, Program.sent_bind, ih hrest, List.flatMap_cons]
    exact congrArg (· ++ rest.flatMap requests) (hn σ meaning state)

theorem sent_performAll_warning (h : Handler k) (e : WatchError) (state : σ) :
    (performAll h [.warning e]).sent meaning state = [] := rfl

theorem steps?_ok {s after : Store k} {e : Observation k} {ns : List (Notification k)}
    (h : Informer.Step s e ns after) :
    steps? s (.ok e) = some (ns.map (Step.call · after), after) := by
  rw [steps?, Informer.step?_eq_some_iff.mpr h]
  rfl

/-! ### Loops -/

/-- **The loop of a controller.** Its store follows the observations, it is not broken off, and it
sends what the handler asks for about each notification, one after the other. -/
theorem loop_spec {h : Handler k} {requests : Notification k → List Request}
    {choices : List (Selected k)} {s last : Store k} {ns : List (Notification k)}
    (hrun : Informer.run? s (observed choices) = some (ns, last))
    (hasks : ∀ n ∈ ns, h.Asks n (requests n)) (state : σ) :
    ((loop h s choices).run meaning state).1.1 ≠ .brokenOff ∧
      ((loop h s choices).run meaning state).1.2 = last ∧
      (loop h s choices).sent meaning state = ns.flatMap requests := by
  have hstopped : Ending.stopped ≠ .brokenOff := by decide
  induction choices generalizing s ns state with
  | nil =>
    obtain ⟨rfl, rfl⟩ : [] = ns ∧ s = last := by simpa [observed, Informer.run?] using hrun
    exact ⟨by simp [loop, Program.run], rfl, rfl⟩
  | cons c rest ih =>
    cases c with
    | cancelled =>
      obtain ⟨rfl, rfl⟩ : [] = ns ∧ s = last := by simpa [observed, Informer.run?] using hrun
      exact ⟨hstopped, rfl, rfl⟩
    | ended =>
      obtain ⟨rfl, rfl⟩ : [] = ns ∧ s = last := by simpa [observed, Informer.run?] using hrun
      exact ⟨hstopped, rfl, rfl⟩
    | item i =>
      cases i with
      | error e =>
        simp only [loop, steps?, Program.run_bind, Program.sent_bind, sent_performAll_warning,
          List.nil_append]
        exact ih hrun hasks _
      | ok e =>
        obtain ⟨now, mid, later, hstep, hlater, rfl⟩ := Informer.run?_cons_eq_some_iff.mp hrun
        obtain ⟨hnow, hrest⟩ := List.forall_mem_append.mp hasks
        obtain ⟨hending, hstore, hsent⟩ := ih hlater hrest
          ((performAll h (now.map (Step.call · mid))).run meaning state).2
        rw [loop, steps?_ok hstep]
        simp only [Program.run_bind, Program.sent_bind, sent_performAll_calls meaning hnow]
        exact ⟨hending, hstore, by rw [hsent, List.flatMap_append]⟩

theorem run_spec {h : Handler k} {requests : Notification k → List Request}
    {choices : List (Selected k)} {last : Store k} {ns : List (Notification k)}
    (hrun : Informer.run? .empty (observed choices) = some (ns, last))
    (hasks : ∀ n ∈ ns, h.Asks n (requests n)) (state : σ) :
    ((run h choices).run meaning state).1.1 ≠ .brokenOff ∧
      ((run h choices).run meaning state).1.2 = last ∧
      (run h choices).sent meaning state = ns.flatMap requests := by
  simp only [run, Program.run_bind, Program.sent_bind, Program.sent_log, List.nil_append]
  exact loop_spec meaning hrun hasks _

end

end Controller

end CustomResource
