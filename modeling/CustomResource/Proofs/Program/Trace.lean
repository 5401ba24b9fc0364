import CustomResource.Program.Task

/-!
# What a program does in a world

`Program.run` says what a program yields, given what each action means. Here is what it does on the
way: the actions that it performs, with their results. A world is any state with any meaning of the
actions on it, so a statement about all worlds is one about all answers of the apiserver, in
whatever way they depend on what was asked before.

## Main definitions

* `Meaning`: what each action means in a world.
* `Program.Performed`: an action with its result.
* `Program.trace`: what a program performs in a world.
* `Program.sent`: the requests among that.
* `Program.Performs`: a program performs nothing but actions of some sort.

## Main results

* `Program.run_bind`, `trace_bind`, `sent_bind`: one program after another.
* `Program.Performs.run_snd`: what these actions leave as it is, the program leaves as it is.
* `Task.sent_exchange`, `sent_call`: a request is sent if it can be, whatever the answer.
-/

namespace CustomResource

/-- What each action means in a world with states of some type. -/
abbrev Meaning (σ : Type) : Type := (action : Action) → σ → action.Result × σ

namespace Program

variable {α β σ : Type}

/-- Programs satisfy the laws of monads. The inductions are on the first program. -/
instance : LawfulMonad Program := LawfulMonad.mk' Program
  (fun p => by
    change p.bind .done = p
    induction p with
    | done value => rfl
    | perform action next ih => exact congrArg (perform action) (funext ih))
  (fun _ _ => rfl)
  (fun p next next' => by
    change (p.bind next).bind next' = p.bind fun value => (next value).bind next'
    induction p with
    | done value => rfl
    | perform action rest ih => exact congrArg (perform action) (funext ih))

/-- An action that has been performed, with its result. -/
structure Performed where
  action : Action
  result : action.Result

/-- The request that has been sent, if the action was to send one. -/
def Performed.request? : Performed → Option Request
  | ⟨.send request _, _⟩ => some request
  | _ => none

/-- The actions that a program performs in a world, in order. -/
def trace (meaning : Meaning σ) : Program α → σ → List Performed
  | .done _, _ => []
  | .perform action next, state =>
    let (result, state) := meaning action state
    ⟨action, result⟩ :: (next result).trace meaning state

/-- The requests that a program sends in a world, in order. -/
def sent (meaning : Meaning σ) (p : Program α) (state : σ) : List Request :=
  (p.trace meaning state).filterMap Performed.request?

variable (meaning : Meaning σ)

theorem run_perform (action : Action) (next : action.Result → Program α) (state : σ) :
    (perform action next).run meaning state =
      (next (meaning action state).1).run meaning (meaning action state).2 := rfl

theorem trace_perform (action : Action) (next : action.Result → Program α) (state : σ) :
    (perform action next).trace meaning state = ⟨action, (meaning action state).1⟩ ::
      (next (meaning action state).1).trace meaning (meaning action state).2 := rfl

@[simp] theorem run_pure (value : α) (state : σ) :
    (pure value : Program α).run meaning state = (value, state) := rfl

@[simp] theorem run_bind (p : Program α) (next : α → Program β) (state : σ) :
    (p >>= next).run meaning state =
      (next (p.run meaning state).1).run meaning (p.run meaning state).2 := by
  change (p.bind next).run meaning state = _
  induction p generalizing state with
  | done value => rfl
  | perform action rest ih => rw [Program.bind, run_perform, run_perform, ih]

@[simp] theorem trace_bind (p : Program α) (next : α → Program β) (state : σ) :
    (p >>= next).trace meaning state = p.trace meaning state ++
      (next (p.run meaning state).1).trace meaning (p.run meaning state).2 := by
  change (p.bind next).trace meaning state = _
  induction p generalizing state with
  | done value => rfl
  | perform action rest ih =>
    rw [Program.bind, trace_perform, trace_perform, run_perform, ih, List.cons_append]

@[simp] theorem sent_pure (value : α) (state : σ) :
    (pure value : Program α).sent meaning state = [] := rfl

@[simp] theorem sent_bind (p : Program α) (next : α → Program β) (state : σ) :
    (p >>= next).sent meaning state = p.sent meaning state ++
      (next (p.run meaning state).1).sent meaning (p.run meaning state).2 := by
  rw [sent, trace_bind, List.filterMap_append]
  rfl

@[simp] theorem sent_log (level : LogLevel) (message : String) (state : σ) :
    (log level message).sent meaning state = [] := rfl

/-! ### What a program leaves as it is -/

/-- A program performs nothing but actions of some sort, whatever their results are. -/
inductive Performs (P : Action → Prop) : Program α → Prop
  | done (value : α) : Performs P (.done value)
  | perform {action : Action} {next : action.Result → Program α} (haction : P action)
      (hnext : ∀ result, Performs P (next result)) : Performs P (.perform action next)

namespace Performs

variable {P : Action → Prop}

theorem ofAction {action : Action} (h : P action) : (Program.ofAction action).Performs P :=
  .perform h .done

theorem bind {p : Program α} {next : α → Program β} (h : p.Performs P)
    (hnext : ∀ value, (next value).Performs P) : (p >>= next).Performs P := by
  change (p.bind next).Performs P
  induction h with
  | done value => exact hnext value
  | perform haction _ ih => exact .perform haction ih

theorem bind_except {ε : Type} {t : ExceptT ε Program α} {next : α → ExceptT ε Program β}
    (h : t.run.Performs P) (hnext : ∀ value, (next value).run.Performs P) :
    (t >>= next).run.Performs P := by
  rw [ExceptT.run_bind]
  refine h.bind fun outcome => ?_
  cases outcome with
  | error e => exact .done _
  | ok value => exact hnext value

theorem lift {ε : Type} {p : Program α} (h : p.Performs P) :
    (liftM p : ExceptT ε Program α).run.Performs P :=
  h.bind fun _ => .done _

theorem forIn {ε ι : Type} {body : ι → PUnit → ExceptT ε Program (ForInStep PUnit)}
    (h : ∀ item state, (body item state).run.Performs P) (items : List ι) (state : PUnit) :
    (ForIn.forIn items state body).run.Performs P := by
  induction items generalizing state with
  | nil => exact .done _
  | cons item items ih =>
    rw [List.forIn_cons]
    refine (h item state).bind_except fun step => ?_
    cases step with
    | done state => exact .done _
    | yield state => exact ih state

/-- A deadline changes only when requests are given up, and until when is waited. -/
theorem within (hsleep : ∀ instant, P (.sleepUntil instant))
    (hsend : ∀ r limit deadline, P (.send r limit) → P (.send r (some deadline)))
    (deadline : Duration) {p : Program α} (h : p.Performs P) :
    (p.within deadline).Performs P := by
  induction h with
  | done value => exact .done _
  | @perform action next haction _ ih =>
    cases action with
    | sleepUntil instant =>
      rw [Program.within]
      split
      · exact .perform haction ih
      · exact .perform (hsleep deadline) fun _ => .done none
    | send r limit =>
      rw [Program.within]
      refine .perform (hsend r limit _ haction) fun answer => ?_
      cases (answer : Option Answer) with
      | none => exact .done none
      | some a => exact ih (some a)
    | _ => exact .perform haction ih

/-- **What its actions leave as it is**, a program leaves as it is. -/
theorem run_snd {p : Program α} (h : p.Performs P) {τ : Type} {view : σ → τ}
    (hview : ∀ action, P action → ∀ s, view (meaning action s).2 = view s) (s : σ) :
    view (p.run meaning s).2 = view s := by
  induction h generalizing s with
  | done value => rfl
  | perform haction _ ih => exact (ih _ _).trans (hview _ haction s)

end Performs

end Program

namespace Task

variable {α σ : Type} (meaning : Meaning σ)

/-- A request is sent once if it can be sent, whatever is answered, and otherwise not at all. -/
theorem sent_exchange (r : Request) (read : Answer → Except Api.Error α) (state : σ) :
    (exchange r read).sent meaning state = if r.check.isOk then [r] else [] := by
  rw [exchange]
  cases r.check with
  | error e => rfl
  | ok =>
    refine congrArg (r :: ·) ?_
    -- what comes after the answer performs nothing, whether there is one or not
    generalize (meaning (.send r none) state).1 = answer
    cases (answer : Option Answer) <;> rfl

theorem performs_exchange {P : Action → Prop} {r : Request} (h : P (.send r none))
    (read : Answer → Except Api.Error α) : (exchange r read).Performs P := by
  rw [exchange]
  cases r.check with
  | error e => exact .done _
  | ok =>
    refine .perform h fun answer => ?_
    cases (answer : Option Answer) <;> exact .done _

theorem sent_call (r : Request) (read : Answer → Except Api.Error α) (state : σ) :
    (call r read).run.sent meaning state = if r.check.isOk then [r] else [] := by
  change (exchange r read >>= fun outcome =>
    (pure (outcome.mapError .request) : Program (Except Error α))).sent meaning state = _
  rw [Program.sent_bind, sent_exchange, Program.sent_pure, List.append_nil]

end Task

end CustomResource
