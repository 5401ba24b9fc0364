import CustomResource.Proofs.Program.Trace

/-!
# What a program exchanges with the apiserver

The requests that are really sent are fewer than those that a program performs: at or after its
deadline a request is not sent any more. So a world needs a clock before one can say what it is
asked. With a clock an exchange also has a time, and "in time" has a meaning.

## Main definitions

* `Exchange`: a request that has been sent, with what came back in time.
* `Meaning.Timed`: the worlds whose actions take their time as `Action` says.
* `Program.exchanges`: the exchanges of a program in a world.
* `Program.Tells`: a program only writes messages.

## Main results

* `Program.exchanges_bind`: one program after another.
* `Program.exchanges_oneByOne`: one exchange after another.
* `Program.within_bind`: a deadline on one program after another.
* `Task.exchanges_exchange`, `run_exchange_of_sendable`: one request without a deadline.
* `Task.exchanges_exchange_within`, `run_exchange_within`: one request with a deadline.
-/

namespace CustomResource

/-! ### Worlds with a clock -/

/-- A request that has been sent at an instant, what came back before its deadline, and the instant
at which this came or the request was given up. -/
structure Exchange where
  request : Request
  sent : Duration
  answer : Option Answer
  closed : Duration

/-- What was understood of the answer, if one came in time. -/
def Exchange.outcome {α : Type} (read : Answer → Except Api.Error α) (e : Exchange) :
    Option (Except Api.Error α) :=
  e.answer.map read

theorem Exchange.map_request_eq_replicate {exchanges : List Exchange} {r : Request}
    (h : ∀ e ∈ exchanges, e.request = r) :
    exchanges.map (·.request) = List.replicate exchanges.length r :=
  List.eq_replicate_iff.mpr ⟨List.length_map _, by simpa using h⟩

/-- Whether a deadline is over at an instant. -/
def isOver (deadline : Option Duration) (instant : Duration) : Bool :=
  deadline.any (· ≤ instant)

theorem isOver_some {deadline instant : Duration} :
    isOver (some deadline) instant = true ↔ deadline ≤ instant := decide_eq_true_iff

theorem not_isOver_some {deadline instant : Duration} :
    ¬ isOver (some deadline) instant = true ↔ instant < deadline :=
  (not_congr isOver_some).trans Nat.not_le

namespace Meaning

variable {σ : Type}

/-- The clock of a world, on which messages take no time, and the laws of its requests. One without
a deadline is waited for until there is an answer, be it only that the connection has failed; one
with a deadline has an answer exactly if it is over before the deadline. -/
structure Timed (clock : σ → Duration) (meaning : Meaning σ) : Prop where
  now (s : σ) : (meaning .now s).1 = clock s
  log (level : LogLevel) (message : String) (s : σ) :
    clock (meaning (.log level message) s).2 = clock s
  monotone (action : Action) (s : σ) : clock s ≤ clock (meaning action s).2
  patient (r : Request) (s : σ) : Option.isSome (meaning (.send r none) s).1
  inTime (r : Request) (deadline : Duration) (s : σ) :
    Option.isSome (meaning (.send r (some deadline)) s).1 ↔
      clock (meaning (.send r (some deadline)) s).2 < deadline

/-- A request whose deadline is over has no answer. -/
theorem Timed.unanswered {clock : σ → Duration} {meaning : Meaning σ} (h : meaning.Timed clock)
    (r : Request) {deadline : Duration} {s : σ} (hover : isOver (some deadline) (clock s) = true) :
    (meaning (.send r (some deadline)) s).1 = none := by
  refine Option.not_isSome_iff_eq_none.mp fun hsome => ?_
  have hbefore := (h.inTime r deadline s).mp hsome
  have hlate := Nat.le_trans (isOver_some.mp hover) (h.monotone (.send r (some deadline)) s)
  exact absurd hlate (Nat.not_le.mpr hbefore)

end Meaning

/-- The actions that send nothing. -/
def Action.IsSilent : Action → Prop
  | .send _ _ => False
  | _ => True

namespace Program

variable {α β σ : Type}

/-! ### Exchanges -/

/-- The exchange that an action is in a world: none if it sends nothing, or its deadline is over. -/
def exchange? (clock : σ → Duration) (meaning : Meaning σ) : Action → σ → Option Exchange
  | .send r deadline, s =>
    if isOver deadline (clock s) then none
    else some ⟨r, clock s, (meaning (.send r deadline) s).1, clock (meaning (.send r deadline) s).2⟩
  | _, _ => none

/-- The exchanges of a program in a world, in order. -/
def exchanges (clock : σ → Duration) (meaning : Meaning σ) : Program α → σ → List Exchange
  | .done _, _ => []
  | .perform action next, s =>
    (exchange? clock meaning action s).toList ++
      (next (meaning action s).1).exchanges clock meaning (meaning action s).2

variable {clock : σ → Duration} {meaning : Meaning σ}

/-- An exchange begins when its action does, and is over when its action is. -/
theorem times_of_exchange? {action : Action} {s : σ} {e : Exchange}
    (h : exchange? clock meaning action s = some e) :
    e.sent = clock s ∧ e.closed = clock (meaning action s).2 := by
  cases action with
  | send r deadline =>
    rw [exchange?] at h
    split at h
    · cases h
    · cases h
      exact ⟨rfl, rfl⟩
  | _ => cases h

@[simp] theorem exchanges_pure (value : α) (s : σ) :
    (pure value : Program α).exchanges clock meaning s = [] := rfl

@[simp] theorem exchanges_bind (p : Program α) (next : α → Program β) (s : σ) :
    (p >>= next).exchanges clock meaning s = p.exchanges clock meaning s ++
      (next (p.run meaning s).1).exchanges clock meaning (p.run meaning s).2 := by
  change (p.bind next).exchanges clock meaning s = _
  induction p generalizing s with
  | done value => rfl
  | perform action rest ih =>
    rw [Program.bind, exchanges, exchanges, run_perform, ih, List.append_assoc]

/-- **One exchange after another**, in a world with a clock: none is sent before the one before it
is over, nor before the program has begun. -/
theorem exchanges_oneByOne (h : meaning.Timed clock) (p : Program α) (s : σ) :
    (p.exchanges clock meaning s).Pairwise (fun e e' => e.closed ≤ e'.sent) ∧
      ∀ e ∈ p.exchanges clock meaning s, clock s ≤ e.sent := by
  induction p generalizing s with
  | done value => exact ⟨.nil, by simp [exchanges]⟩
  | perform action next ih =>
    obtain ⟨hrest, hlater⟩ := ih (meaning action s).1 (meaning action s).2
    have hpast := h.monotone action s
    have hafter : ∀ e ∈ (next (meaning action s).1).exchanges clock meaning (meaning action s).2,
        clock s ≤ e.sent := fun e he => Nat.le_trans hpast (hlater e he)
    rw [exchanges]
    cases hsent : exchange? clock meaning action s with
    | none => exact ⟨hrest, hafter⟩
    | some e =>
      obtain ⟨hbegun, hclosed⟩ := times_of_exchange? hsent
      refine ⟨List.pairwise_cons.mpr ⟨fun e' he' => ?_, hrest⟩,
        List.forall_mem_cons.mpr ⟨hbegun ▸ Nat.le_refl _, hafter⟩⟩
      exact hclosed ▸ hlater e' he'

theorem Performs.exchanges_eq_nil {p : Program α} (h : p.Performs Action.IsSilent) (s : σ) :
    p.exchanges clock meaning s = [] := by
  induction h generalizing s with
  | done value => rfl
  | @perform action next haction _ ih =>
    rw [exchanges, ih]
    cases action <;> first | rfl | exact haction.elim

theorem silent_log (level : LogLevel) (message : String) :
    (log level message).Performs Action.IsSilent := .ofAction trivial

@[simp] theorem exchanges_log (level : LogLevel) (message : String) (s : σ) :
    (log level message).exchanges clock meaning s = [] := rfl

@[simp] theorem exchanges_now (s : σ) : now.exchanges clock meaning s = [] := rfl

@[simp] theorem exchanges_sleepUntil (instant : Duration) (s : σ) :
    (sleepUntil instant).exchanges clock meaning s = [] := rfl

/-! ### Deadlines -/

/-- What goes on after a program that has been cut off is cut off as well. -/
def andThenWithin (deadline : Duration) (next : α → Program β) : Option α → Program (Option β)
  | some value => (next value).within deadline
  | none => pure none

theorem within_bind (deadline : Duration) (p : Program α) (next : α → Program β) :
    (p >>= next).within deadline = p.within deadline >>= andThenWithin deadline next := by
  change (p.bind next).within deadline = (p.within deadline).bind _
  induction p with
  | done value => rfl
  | perform action rest ih =>
    cases action with
    | send r limit =>
      simp only [Program.bind, within]
      refine congrArg (perform _) (funext fun answer => ?_)
      cases (answer : Option Answer) with
      | none => rfl
      | some answer => exact ih (some answer)
    | sleepUntil instant =>
      simp only [Program.bind, within]
      split
      · exact congrArg (perform (.sleepUntil instant)) (funext ih)
      · rfl
    | _ => exact congrArg (perform _) (funext ih)

theorem within_now (deadline : Duration) (next : Duration → Program α) :
    (now >>= next).within deadline = now >>= fun instant => (next instant).within deadline := rfl

theorem within_sleepUntil (deadline instant : Duration) (next : Unit → Program α) :
    (sleepUntil instant >>= next).within deadline =
      if instant ≤ deadline then
        sleepUntil instant >>= fun _ => (next ()).within deadline
      else sleepUntil deadline >>= fun _ => pure none := rfl

/-- A program among tasks. -/
theorem run_lift_bind {ε : Type} (p : Program α) (next : α → ExceptT ε Program β) :
    ((liftM p : ExceptT ε Program α) >>= next).run = p >>= fun value => (next value).run := by
  have hlift : (liftM p : ExceptT ε Program α).run = p >>= fun value => pure (.ok value) := rfl
  rw [ExceptT.run_bind, hlift, bind_assoc]
  rfl

/-! ### Messages -/

/-- A program writes messages, if anything, and yields a value. -/
inductive Tells : Program α → α → Prop
  | done (value : α) : Tells (.done value) value
  | log {level : LogLevel} {message : String} {next : Unit → Program α} {value : α}
      (rest : Tells (next ()) value) : Tells (.perform (.log level message) next) value

namespace Tells

theorem bind {p : Program α} {value : α} {next : α → Program β} {value' : β} (h : Tells p value)
    (hnext : Tells (next value) value') : Tells (p >>= next) value' := by
  change Tells (p.bind next) value'
  induction h with
  | done value => exact hnext
  | log rest ih => exact .log (ih hnext)

theorem within {p : Program α} {value : α} (h : Tells p value) (deadline : Duration) :
    Tells (p.within deadline) (some value) := by
  induction h with
  | done value => exact .done (some value)
  | log rest ih => exact .log ih

theorem run_fst {p : Program α} {value : α} (h : Tells p value) (s : σ) :
    (p.run meaning s).1 = value := by
  induction h generalizing s with
  | done value => rfl
  | log rest ih => exact ih _

theorem exchanges_eq_nil {p : Program α} {value : α} (h : Tells p value) (s : σ) :
    p.exchanges clock meaning s = [] := by
  induction h generalizing s with
  | done value => rfl
  | log rest ih => exact ih _

theorem sent_eq_nil {p : Program α} {value : α} (h : Tells p value) (s : σ) :
    p.sent meaning s = [] := by
  induction h generalizing s with
  | done value => rfl
  | log rest ih => exact ih _

theorem performs {p : Program α} {value : α} (h : Tells p value) {P : Action → Prop}
    (hlog : ∀ level message, P (.log level message)) : p.Performs P := by
  induction h with
  | done value => exact .done value
  | log rest ih => exact .perform (hlog _ _) fun _ => ih

/-- What messages leave as it is, a program that only writes messages leaves as it is. -/
theorem run_snd {p : Program α} {value : α} (h : Tells p value) {τ : Type} {view : σ → τ}
    (hview : ∀ level message s, view (meaning (.log level message) s).2 = view s) (s : σ) :
    view (p.run meaning s).2 = view s := by
  induction h generalizing s with
  | done value => rfl
  | log rest ih => exact (ih _).trans (hview _ _ s)

end Tells

end Program

/-! ### One request -/

namespace Task

variable {α β σ : Type} {clock : σ → Duration} {meaning : Meaning σ}

theorem run_attempt_bind (t : Task α) (next : Except Error α → Task β) :
    (t.attempt >>= next).run = t.run >>= fun outcome => (next outcome).run := by
  have hattempt : t.attempt.run = t.run >>= fun outcome => pure (Except.ok outcome) := rfl
  rw [ExceptT.run_bind, hattempt, bind_assoc]
  rfl

/-- A request without a deadline is sent if it can be. -/
theorem exchanges_exchange (r : Request) (read : Answer → Except Api.Error α) (s : σ) :
    (exchange r read).exchanges clock meaning s =
      if r.check.isOk then
        [⟨r, clock s, (meaning (.send r none) s).1, clock (meaning (.send r none) s).2⟩]
      else [] := by
  rw [exchange]
  cases r.check with
  | error e => rfl
  | ok =>
    refine congrArg (_ :: ·) ?_
    generalize (meaning (.send r none) s).1 = answer
    cases (answer : Option Answer) <;> rfl

/-- What is understood of an answer, or of there being none. -/
def understood (read : Answer → Except Api.Error α) : Option Answer → Except Api.Error α
  | some a => read a
  | none => .error (.noConnection "request given up" [])

theorem run_exchange_of_sendable {r : Request} (hr : r.check = .ok ())
    (read : Answer → Except Api.Error α) (s : σ) :
    (exchange r read).run meaning s =
      (understood read (meaning (.send r none) s).1, (meaning (.send r none) s).2) := by
  rw [exchange, hr]
  simp only [Program.run_perform]
  generalize (meaning (.send r none) s).1 = answer
  cases (answer : Option Answer) <;> rfl

theorem run_exchange_of_fault {r : Request} {fault : Api.Error} (hr : r.check = .error fault)
    (read : Answer → Except Api.Error α) (s : σ) :
    (exchange r read).run meaning s = (.error fault, s) := by
  rw [exchange, hr]
  rfl

theorem exchanges_exchange_within (r : Request) (read : Answer → Except Api.Error α)
    (deadline : Duration) (s : σ) :
    ((exchange r read).within deadline).exchanges clock meaning s =
      if r.check.isOk then
        (Program.exchange? clock meaning (.send r (some deadline)) s).toList
      else [] := by
  rw [exchange]
  rcases r.check with e | ⟨⟩
  · rfl
  · rw [if_pos (by rfl)]
    simp only [Program.within, Program.exchanges, Program.earlier]
    generalize (meaning (.send r (some deadline)) s).1 = answer
    cases (answer : Option Answer) <;> exact List.append_nil _

theorem run_exchange_within (r : Request) (read : Answer → Except Api.Error α)
    (deadline : Duration) (s : σ) :
    (((exchange r read).within deadline).run meaning s).1 =
      match r.check with
      | .error e => some (.error e)
      | .ok () => Option.map read (meaning (.send r (some deadline)) s).1 := by
  rw [exchange]
  cases r.check with
  | error e => rfl
  | ok =>
    simp only [Program.within, Program.run_perform, Program.earlier]
    generalize (meaning (.send r (some deadline)) s).1 = answer
    cases (answer : Option Answer) <;> rfl

theorem run_exchange_within_snd {r : Request} (hr : r.check = .ok ())
    (read : Answer → Except Api.Error α) (deadline : Duration) (s : σ) :
    (((exchange r read).within deadline).run meaning s).2 =
      (meaning (.send r (some deadline)) s).2 := by
  rw [exchange, hr]
  simp only [Program.within, Program.run_perform, Program.earlier]
  generalize (meaning (.send r (some deadline)) s).1 = answer
  cases (answer : Option Answer) <;> rfl

end Task

end CustomResource
