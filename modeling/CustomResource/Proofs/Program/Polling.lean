import CustomResource.Program.Poll
import CustomResource.Proofs.Program.Calls

/-!
# What a poll asks, and what it makes of the answers

A condition that is checked by one request is decided by the last answer in time. All answers before
it have left the condition open; without any answer in time the poll yields nothing. This holds
however long the answers take, so the times at which the checks are due do not matter here.

## Main definitions

* `Poll.judge`: what a check makes of an answer.
* `Poll.Asks`: the checks that send one request and judge its answer.
* `Poll.verdict`: what the last of some reads decides.
* `Poll.Polled`: some reads, and what a poll that consists of them yields.

## Main results

* `Poll.Asks.of_calls`: a single request makes a check.
* `Poll.polled_untilSome`: what a poll does.
-/

namespace CustomResource.Poll

variable {α β σ : Type}

/-! ### Checks -/

/-- What a check makes of an answer: it yields something if the value in it is accepted, and fails
if there is none. -/
def judge (read : Answer → Except Api.Error β) (accept : β → Option α) (a : Answer) :
    Except Error (Option α) :=
  ((read a).mapError .request).map accept

theorem judge_eq_ok_iff {read : Answer → Except Api.Error β} {accept : β → Option α} {a : Answer}
    {found : Option α} :
    judge read accept a = .ok found ↔ ∃ b, read a = .ok b ∧ accept b = found := by
  rw [judge]
  cases read a with
  | error e =>
    change Except.error (Error.request e) = .ok found ↔ _
    simp
  | ok b =>
    change Except.ok (accept b) = .ok found ↔ _
    simp

theorem judge_eq_error_iff {read : Answer → Except Api.Error β} {accept : β → Option α}
    {a : Answer} {error : Error} :
    judge read accept a = .error error ↔ ∃ fault, read a = .error fault ∧ error = .request fault := by
  rw [judge]
  cases read a with
  | error e =>
    change Except.error (Error.request e) = .error error ↔ _
    simp [eq_comm]
  | ok b =>
    change Except.ok (accept b) = .error error ↔ _
    simp

/-- A check sends a request, if it can be sent, and does nothing else that counts. -/
structure Asks (clock : σ → Duration) (meaning : Meaning σ) (r : Request)
    (read : Answer → Except Api.Error β) (accept : β → Option α) (check : Task (Option α)) :
    Prop where
  exchanges (deadline : Duration) (s : σ) :
    (check.run.within deadline).exchanges clock meaning s =
      if r.check.isOk then
        (Program.exchange? clock meaning (.send r (some deadline)) s).toList
      else []
  outcome (deadline : Duration) (s : σ) :
    ((check.run.within deadline).run meaning s).1 =
      match r.check with
      | .error e => some (.error (.request e))
      | .ok () => Option.map (judge read accept) (meaning (.send r (some deadline)) s).1

theorem Asks.of_calls {clock : σ → Duration} {meaning : Meaning σ} {r : Request}
    {read : Answer → Except Api.Error β} {accept : β → Option α} {check : Task (Option α)}
    (h : check.run.Calls r read fun outcome => (outcome.mapError .request).map accept) :
    Asks clock meaning r read accept check := by
  obtain ⟨finish, hrun, hfinish⟩ := h
  constructor
  · intro deadline s
    rw [hrun, Program.within_bind, Program.exchanges_bind, Task.exchanges_exchange_within]
    refine (congrArg _ ?_).trans (List.append_nil _)
    generalize (((Task.exchange r read).within deadline).run meaning s).1 = outcome
    cases outcome with
    | none => rfl
    | some outcome => exact ((hfinish outcome).within deadline).exchanges_eq_nil _
  · intro deadline s
    rw [hrun, Program.within_bind, Program.run_bind, Task.run_exchange_within]
    rcases r.check with e | ⟨⟩
    · exact ((hfinish (.error e)).within deadline).run_fst _
    · generalize (meaning (.send r (some deadline)) s).1 = answer
      cases (answer : Option Answer) with
      | none => rfl
      | some a => exact ((hfinish (read a)).within deadline).run_fst _

/-! ### Reads -/

/-- What the last of some reads decides. Without an answer in time nothing is decided. -/
def verdict (read : Answer → Except Api.Error β) (accept : β → Option α) (reads : List Exchange) :
    Except Error (Option α) :=
  match reads.getLast?.bind (·.answer) with
  | some a => judge read accept a
  | none => .ok none

/-- A poll up to a deadline consists of some reads and yields an outcome. -/
structure Polled (r : Request) (read : Answer → Except Api.Error β) (accept : β → Option α)
    (deadline : Duration) (reads : List Exchange) (outcome : Except Error (Option α)) : Prop where
  asked : ∀ e ∈ reads, e.request = r ∧ e.sent < deadline ∧ (e.answer.isSome ↔ e.closed < deadline)
  undecided : ∀ e ∈ reads.dropLast, ∃ a, e.answer = some a ∧ judge read accept a = .ok none
  decided : r.check = .ok () → outcome = verdict read accept reads
  unsent : ∀ fault, r.check = .error fault →
    reads = [] ∧ (outcome = .ok none ∨ outcome = .error (.request fault))

variable {clock : σ → Duration} {meaning : Meaning σ} {r : Request}
  {read : Answer → Except Api.Error β} {accept : β → Option α} {deadline : Duration}

namespace Polled

/-- Without any read nothing is decided. -/
theorem nil : Polled r read accept deadline [] (.ok none) where
  asked := by simp
  undecided := by simp
  decided _ := rfl
  unsent _ _ := ⟨rfl, Or.inl rfl⟩

/-- What cannot be asked fails. -/
theorem of_fault {fault : Api.Error} (hr : r.check = .error fault) :
    Polled r read accept deadline [] (.error (.request fault)) where
  asked := by simp
  undecided := by simp
  decided h := by simp [hr] at h
  unsent fault' h := by
    obtain rfl : fault = fault' := Except.error.inj (hr.symm.trans h)
    exact ⟨rfl, Or.inr rfl⟩

/-- A read that decides, or has no answer in time, is the last one. -/
theorem last (hr : r.check = .ok ()) {e : Exchange} (he : e.request = r) (hsent : e.sent < deadline)
    (hanswer : e.answer.isSome ↔ e.closed < deadline) {outcome : Except Error (Option α)}
    (hverdict : verdict read accept [e] = outcome) :
    Polled r read accept deadline [e] outcome where
  asked := by simpa using ⟨he, hsent, hanswer⟩
  undecided := by simp
  decided _ := hverdict.symm
  unsent fault h := by simp [hr] at h

/-- After a read that leaves the condition open the others decide. -/
theorem cons (hr : r.check = .ok ()) {e : Exchange} {a : Answer} (he : e.request = r)
    (hsent : e.sent < deadline) (hclosed : e.closed < deadline) (ha : e.answer = some a)
    (hopen : judge read accept a = .ok none) {reads : List Exchange}
    {outcome : Except Error (Option α)} (h : Polled r read accept deadline reads outcome) :
    Polled r read accept deadline (e :: reads) outcome where
  asked := by
    refine List.forall_mem_cons.mpr ⟨⟨he, hsent, ?_⟩, h.asked⟩
    simp [ha, hclosed]
  undecided := by
    cases reads with
    | nil => simp
    | cons e' rest => exact List.forall_mem_cons.mpr ⟨⟨a, ha, hopen⟩, h.undecided⟩
  decided hr := by
    rw [h.decided hr]
    cases reads with
    | nil => simp [verdict, ha, hopen]
    | cons e' rest => rfl
  unsent fault h := by simp [hr] at h

/-- All reads before the last one have had an answer, which was understood and not accepted. -/
theorem undecided_outcome {reads : List Exchange} {outcome : Except Error (Option α)}
    (h : Polled r read accept deadline reads outcome) :
    ∀ e ∈ reads.dropLast, ∃ b, e.outcome read = some (.ok b) ∧ accept b = none := by
  intro e he
  obtain ⟨a, ha, hopen⟩ := h.undecided e he
  obtain ⟨b, hread, haccept⟩ := judge_eq_ok_iff.mp hopen
  exact ⟨b, by rw [Exchange.outcome, ha, Option.map_some, hread], haccept⟩

section Decided

variable {reads : List Exchange} {outcome : Except Error (Option α)}
  (h : Polled r read accept deadline reads outcome) (hr : r.check = .ok ())

include h hr

/-- Other than that the time is over, a poll yields what the answer to its last read decides. -/
theorem outcome_eq_iff {decided : Except Error (Option α)} (hdecided : decided ≠ .ok none) :
    outcome = decided ↔
      ∃ e a, reads.getLast? = some e ∧ e.answer = some a ∧ judge read accept a = decided := by
  rw [h.decided hr, verdict]
  cases reads.getLast? with
  | none => simpa using hdecided.symm
  | some e =>
    cases hanswer : e.answer with
    | none => simpa [hanswer] using hdecided.symm
    | some a => simp [hanswer]

theorem outcome_eq_found_iff {value : α} : outcome = .ok (some value) ↔
    ∃ e b, reads.getLast? = some e ∧ e.outcome read = some (.ok b) ∧ accept b = some value := by
  rw [h.outcome_eq_iff hr (by simp)]
  simp only [judge_eq_ok_iff, Exchange.outcome, Option.map_eq_some_iff]
  grind

theorem outcome_eq_error_iff {error : Error} : outcome = .error error ↔
    ∃ e fault, reads.getLast? = some e ∧ e.outcome read = some (.error fault) ∧
      error = .request fault := by
  rw [h.outcome_eq_iff hr (by simp)]
  simp only [judge_eq_error_iff, Exchange.outcome, Option.map_eq_some_iff]
  grind

/-- A poll yields nothing exactly if no answer has decided anything. -/
theorem outcome_eq_none_iff : outcome = .ok none ↔
    ∀ e ∈ reads, ∀ answered, e.outcome read = some answered →
      ∃ b, answered = .ok b ∧ accept b = none := by
  have hundecided := h.undecided_outcome
  rw [h.decided hr]
  rcases List.eq_nil_or_concat reads with rfl | ⟨front, last, hreads⟩
  · simp [verdict]
  · obtain rfl : reads = front ++ [last] := hreads.trans List.concat_eq_append
    rw [List.dropLast_concat] at hundecided
    have hverdict : verdict read accept (front ++ [last]) = .ok none ↔
        ∀ answered, last.outcome read = some answered →
          ∃ b, answered = .ok b ∧ accept b = none := by
      cases hanswer : last.answer <;> simp [verdict, Exchange.outcome, hanswer, judge_eq_ok_iff]
    rw [hverdict]
    constructor
    · intro hlast e he answered hanswered
      rcases List.mem_append.mp he with he | he
      · obtain ⟨b, hopen, haccept⟩ := hundecided e he
        exact ⟨b, Option.some.inj (hanswered.symm.trans hopen), haccept⟩
      · obtain rfl := List.mem_singleton.mp he
        exact hlast answered hanswered
    · exact fun hall => hall last (List.mem_append_right _ (List.mem_singleton_self last))

end Decided

/-- What a poll yields has been accepted in the answer to its last read. -/
theorem exists_of_found {reads : List Exchange} {value : α}
    (h : Polled r read accept deadline reads (.ok (some value))) :
    ∃ e b, reads.getLast? = some e ∧ e.outcome read = some (.ok b) ∧ accept b = some value := by
  cases hr : r.check with
  | error fault => simpa using (h.unsent fault hr).2
  | ok => exact (h.outcome_eq_found_iff hr).mp rfl

end Polled

/-! ### Whole polls -/

/-- What a poll does after a check: it ends, or goes on with the checks that are left. -/
def goOn (rest : Task (Option α)) : Except Error (Option α) → Program (Except Error (Option α))
  | .ok (some value) => pure (.ok (some value))
  | .ok none => rest.run
  | .error e => pure (.error e)

theorem run_checks_zero (p : Poll) (check : Nat → Task (Option α)) (n : Nat) (due : Duration) :
    (p.checks check 0 n due).run =
      Program.sleepUntil due.ceilMillis >>= fun _ => pure (.ok none) := rfl

theorem run_checks_succ (p : Poll) (check : Nat → Task (Option α)) (fuel n : Nat)
    (due : Duration) : (p.checks check (fuel + 1) n due).run =
      Program.now >>= fun now => Program.sleepUntil (now.max due.ceilMillis) >>= fun _ =>
        (check n).run >>=
          goOn (p.checks check fuel (n + 1) (p.nextDue due (now.max due.ceilMillis))) := by
  rw [checks]
  refine congrArg (Program.perform .now) (funext fun now => ?_)
  refine congrArg (Program.perform _) (funext fun _ => ?_)
  refine congrArg (Program.bind (check n).run) (funext fun outcome => ?_)
  cases outcome with
  | error e => rfl
  | ok found => cases found <;> rfl

/-- One check before others. It is the last if it decides, if it has no answer in time, or if it is
not sent at all. -/
theorem Asks.polled (h : meaning.Timed clock) {check rest : Task (Option α)}
    (hask : Asks clock meaning r read accept check)
    (hrest : ∀ s, Polled r read accept deadline
      ((rest.run.within deadline).exchanges clock meaning s)
      (((rest.run.within deadline).run meaning s).1.getD (.ok none))) (s : σ) :
    Polled r read accept deadline
      (((check.run >>= goOn rest).within deadline).exchanges clock meaning s)
      ((((check.run >>= goOn rest).within deadline).run meaning s).1.getD (.ok none)) := by
  rw [Program.within_bind, Program.exchanges_bind, Program.run_bind, hask.exchanges, hask.outcome]
  generalize ((check.run.within deadline).run meaning s).2 = after
  rcases hr : r.check with fault | ⟨⟩
  · exact .of_fault hr
  · rw [if_pos (by rfl), Program.exchange?]
    by_cases hover : isOver (some deadline) (clock s) = true
    · rw [if_pos hover, h.unanswered r hover]
      exact .nil
    · rw [if_neg hover]
      have hsent := not_isOver_some.mp hover
      have hintime := h.inTime r deadline s
      generalize clock (meaning (.send r (some deadline)) s).2 = closed at hintime ⊢
      generalize (meaning (.send r (some deadline)) s).1 = answer at hintime ⊢
      cases (answer : Option Answer) with
      | none => exact .last hr rfl hsent hintime rfl
      | some a =>
        change Polled r read accept deadline (_ :: Program.exchanges clock meaning
          ((goOn rest (judge read accept a)).within deadline) after)
          ((((goOn rest (judge read accept a)).within deadline).run meaning after).1.getD _)
        cases hjudge : judge read accept a with
        | error e => exact .last hr rfl hsent hintime hjudge
        | ok found =>
          cases found with
          | some value => exact .last hr rfl hsent hintime hjudge
          | none => exact .cons hr rfl hsent (hintime.mp rfl) rfl hjudge (hrest after)

/-- The induction is on the number of checks that are left. What a check leaves open is decided by
those after it, and a poll that is cut off decides nothing. -/
theorem polled_checks (h : meaning.Timed clock) (p : Poll) {check : Nat → Task (Option α)}
    (hasks : ∀ n, Asks clock meaning r read accept (check n)) (fuel n : Nat) (due : Duration)
    (s : σ) :
    Polled r read accept deadline
      (((p.checks check fuel n due).run.within deadline).exchanges clock meaning s)
      ((((p.checks check fuel n due).run.within deadline).run meaning s).1.getD (.ok none)) := by
  induction fuel generalizing n due s with
  | zero =>
    rw [run_checks_zero, Program.within_sleepUntil]
    split <;> exact .nil
  | succ fuel ih =>
    rw [run_checks_succ, Program.within_now, Program.exchanges_bind, Program.run_bind,
      Program.within_sleepUntil]
    split
    · rw [Program.exchanges_bind, Program.run_bind]
      exact (hasks n).polled h (ih _ _) _
    · exact .nil

theorem run_untilSome (p : Poll) (check : Nat → Task (Option α)) :
    (p.untilSome check).run = Program.now >>= fun start =>
      (p.checks check p.mostChecks 0 start).run.within (start + p.timeout).ceilMillis >>=
        fun outcome => pure (outcome.getD (.ok none)) := rfl

/-- **What a poll does.** -/
theorem polled_untilSome (h : meaning.Timed clock) (p : Poll) {check : Nat → Task (Option α)}
    (hcalls : ∀ n, (check n).run.Calls r read fun outcome =>
      (outcome.mapError .request).map accept) (s : σ) :
    Polled r read accept (clock s + p.timeout).ceilMillis
      ((p.untilSome check).run.exchanges clock meaning s)
      ((p.untilSome check).run.run meaning s).1 := by
  have hnow : (Program.now.run meaning s).1 = clock s := h.now s
  rw [run_untilSome, Program.exchanges_bind, Program.run_bind, hnow, Program.exchanges_bind,
    Program.run_bind, Program.exchanges_pure, List.append_nil, Program.exchanges_now,
    List.nil_append, Program.run_pure]
  exact polled_checks h p (fun n => .of_calls (hcalls n)) p.mostChecks 0 (clock s) _

/-! ### What a poll can yield, and what it leaves as it is -/

/-- What a poll yields is what its check makes of some answer, or nothing. -/
theorem untilSome_of_answers (p : Poll) {check : Nat → Task (Option α)}
    (hcalls : ∀ n, (check n).run.Calls r read fun outcome =>
      (outcome.mapError .request).map accept) (hr : r.check = .ok ())
    {Q : Except Error (Option α) → Prop} (hnone : Q (.ok none))
    (hanswer : ∀ deadline s a, (meaning (.send r (some deadline)) s).1 = some a →
      Q (judge read accept a)) (s : σ) : Q ((p.untilSome check).run.run meaning s).1 := by
  have hasks : ∀ n, Asks (fun _ => .ofMillis 0) meaning r read accept (check n) :=
    fun n => .of_calls (hcalls n)
  have hchecks : ∀ deadline fuel n due s, Q ((((p.checks check fuel n due).run.within
      deadline).run meaning s).1.getD (.ok none)) := by
    intro deadline fuel
    induction fuel with
    | zero =>
      intro n due s
      rw [run_checks_zero, Program.within_sleepUntil]
      split <;> exact hnone
    | succ fuel ih =>
      intro n due s
      rw [run_checks_succ, Program.within_now, Program.run_bind, Program.within_sleepUntil]
      split
      · rw [Program.run_bind, Program.within_bind, Program.run_bind, (hasks n).outcome, hr]
        generalize ((check n).run.within deadline).run meaning _ = checked
        cases hsent : (meaning (.send r (some deadline)) _).1 with
        | none => exact hnone
        | some a =>
          have hfound := hanswer deadline _ a hsent
          change Q ((((goOn _ (judge read accept a)).within deadline).run meaning _).1.getD _)
          generalize judge read accept a = outcome at hfound ⊢
          rcases outcome with e | (_ | value)
          · exact hfound
          · exact ih _ _ _
          · exact hfound
      · exact hnone
  rw [run_untilSome, Program.run_bind, Program.run_bind, Program.run_pure]
  exact hchecks _ _ _ _ _

theorem performs_untilSome {P : Action → Prop} (hnow : P .now)
    (hsleep : ∀ instant, P (.sleepUntil instant))
    (hsend : ∀ r limit deadline, P (.send r limit) → P (.send r (some deadline))) (p : Poll)
    {check : Nat → Task (Option α)} (hcheck : ∀ n, (check n).run.Performs P) :
    (p.untilSome check).run.Performs P := by
  have hchecks : ∀ fuel n due, (p.checks check fuel n due).run.Performs P := by
    intro fuel
    induction fuel with
    | zero => exact fun n due => (Program.Performs.ofAction (hsleep _)).bind fun _ => .done _
    | succ fuel ih =>
      intro n due
      rw [run_checks_succ]
      refine (Program.Performs.ofAction hnow).bind fun now => ?_
      refine (Program.Performs.ofAction (hsleep _)).bind fun _ => ?_
      refine (hcheck n).bind fun outcome => ?_
      rcases outcome with e | (_ | value)
      · exact .done _
      · exact ih _ _
      · exact .done _
  rw [run_untilSome]
  refine (Program.Performs.ofAction hnow).bind fun start => ?_
  exact ((hchecks _ _ _).within hsleep hsend _).bind fun _ => .done _

end CustomResource.Poll
