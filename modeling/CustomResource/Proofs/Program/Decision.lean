import CustomResource.Proofs.Program.Schedule

/-!
# What decides a poll

A poll whose checks ask nobody can be told from its checks alone. Left to themselves they would go
on for ever, each at its time: the first of them that finds something or fails decides the poll, if
it is over by the deadline. A check that is over just at the deadline still counts, and nothing is
checked after the one that decides. The deadline has no part in what the checks would do, so a poll
that is decided stays so if it is given more time.

## Main definitions

* `Action.IsInProcess`: the actions that ask nobody.
* `Poll.upcoming`, `begun`, `yielded`, `ended`: the checks left to themselves.
* `Poll.Decides`: the first check that does not leave it at nothing yields something in time.

## Main results

* `Program.run_within_of_inProcess`: a deadline cuts off what would be over later.
* `Poll.outcome_of_first_decision`: what a poll yields, which checks it makes, and what more time
  changes.
-/

namespace CustomResource

/-! ### Programs that ask nobody -/

/-- The actions of a process on its own: messages, looks at the clock and waits. -/
def Action.IsInProcess : Action → Prop
  | .log _ _ | .now | .sleepUntil _ => True
  | _ => False

/-- **A deadline cuts off what would be over later**, and has no part in what is over by then. -/
theorem Program.run_within_of_inProcess {α σ : Type} {clock : σ → Duration} {meaning : Meaning σ}
    (h : meaning.Punctual clock) {p : Program α} (hp : p.Performs Action.IsInProcess)
    {deadline : Duration} {s : σ} (hs : clock s ≤ deadline) :
    if clock (p.run meaning s).2 ≤ deadline then
      (p.within deadline).run meaning s = (some (p.run meaning s).1, (p.run meaning s).2)
    else ((p.within deadline).run meaning s).1 = none := by
  induction hp generalizing s with
  | done value => exact if_pos hs ▸ rfl
  | @perform action next haction _ ih =>
    cases action with
    | log level message =>
      have hlogged : clock (meaning (.log level message) s).2 = clock s := h.log level message s
      exact ih _ (hlogged ▸ hs)
    | now =>
      have hlooked : clock (meaning .now s).2 = clock s := congrArg (clock ·.2) (h.now s)
      exact ih _ (hlooked ▸ hs)
    | sleepUntil instant =>
      have hwake : clock (meaning (.sleepUntil instant) s).2 = (clock s).max instant :=
        h.sleep instant s
      rw [within]
      by_cases hinstant : instant ≤ deadline
      · rw [if_pos hinstant]
        exact ih _ (hwake ▸ Nat.max_le.mpr ⟨hs, hinstant⟩)
      · have hlate : ¬ clock ((perform (.sleepUntil instant) next).run meaning s).2 ≤ deadline := by
          intro hover
          have hrest := h.le_clock_run (next ()) (meaning (.sleepUntil instant) s).2
          rw [hwake] at hrest
          exact hinstant (Nat.le_trans (Nat.le_trans (Nat.le_max_right _ _) hrest) hover)
        rw [if_neg hlate, if_neg hinstant]
        rfl
    | _ => exact haction.elim

namespace Poll

variable {α σ : Type} {clock : σ → Duration} {meaning : Meaning σ}

/-! ### The checks left to themselves -/

section Unhurried

variable (p : Poll) (clock : σ → Duration) (meaning : Meaning σ) (check : Nat → Task (Option α))

/-- When the `k`-th check from the `n`-th on is due, and the state before it, if every check is
followed by another. The `n`-th is due at an instant. -/
def upcoming (n : Nat) (due : Duration) (s : σ) : Nat → Duration × σ
  | 0 => (due, s)
  | k + 1 => upcoming (n + 1) (p.nextDue due (startOf clock due s))
      ((check n).run.run meaning (beginning clock meaning due s)).2 k

/-- The state in which the `k`-th check from the `n`-th on begins. -/
def begun (n : Nat) (due : Duration) (s : σ) (k : Nat) : σ :=
  beginning clock meaning (p.upcoming clock meaning check n due s k).1
    (p.upcoming clock meaning check n due s k).2

/-- What the `k`-th check from the `n`-th on yields. -/
def yielded (n : Nat) (due : Duration) (s : σ) (k : Nat) : Except Error (Option α) :=
  ((check (n + k)).run.run meaning (p.begun clock meaning check n due s k)).1

/-- The state in which the `k`-th check from the `n`-th on is over. -/
def ended (n : Nat) (due : Duration) (s : σ) (k : Nat) : σ :=
  ((check (n + k)).run.run meaning (p.begun clock meaning check n due s k)).2

/-- The first check that does not leave it at nothing yields an outcome, and is over by a
deadline. -/
def Decides (n : Nat) (due : Duration) (s : σ) (deadline : Duration)
    (outcome : Except Error (Option α)) : Prop :=
  ∃ k, (∀ m < k, p.yielded clock meaning check n due s m = .ok none) ∧
    p.yielded clock meaning check n due s k = outcome ∧
    clock (p.ended clock meaning check n due s k) ≤ deadline

end Unhurried

variable {p : Poll} {check : Nat → Task (Option α)} {n : Nat} {due : Duration} {s : σ}

/-- After the first check the others are those from the next one on. -/
theorem begun_succ (k : Nat) : p.begun clock meaning check n due s (k + 1) =
    p.begun clock meaning check (n + 1) (p.nextDue due (startOf clock due s))
      (p.ended clock meaning check n due s 0) k := rfl

theorem yielded_succ (k : Nat) : p.yielded clock meaning check n due s (k + 1) =
    p.yielded clock meaning check (n + 1) (p.nextDue due (startOf clock due s))
      (p.ended clock meaning check n due s 0) k := by
  rw [yielded, yielded, begun_succ, Nat.add_right_comm]
  rfl

theorem ended_succ (k : Nat) : p.ended clock meaning check n due s (k + 1) =
    p.ended clock meaning check (n + 1) (p.nextDue due (startOf clock due s))
      (p.ended clock meaning check n due s 0) k := by
  rw [ended, ended, begun_succ, Nat.add_right_comm]
  rfl

theorem clock_begun_le_ended (h : meaning.Punctual clock) (k : Nat) :
    clock (p.begun clock meaning check n due s k) ≤ clock (p.ended clock meaning check n due s k) :=
  h.le_clock_run _ _

/-- No check begins before the first one is due and can begin. -/
theorem startOf_le_begun (h : meaning.Punctual clock) (k : Nat) :
    startOf clock due s ≤ clock (p.begun clock meaning check n due s k) := by
  induction k generalizing n due s with
  | zero => exact Nat.le_of_eq (congrArg _ (clock_beginning h due s).symm)
  | succ k ih =>
    rw [begun_succ]
    have hended : clock (beginning clock meaning due s) ≤
        clock (p.ended clock meaning check n due s 0) := h.le_clock_run _ _
    rw [clock_beginning h] at hended
    exact Nat.le_trans (Nat.le_trans hended (Nat.le_max_left _ _)) ih

theorem ended_zero_le_begun (h : meaning.Punctual clock) (k : Nat) :
    clock (p.ended clock meaning check n due s 0) ≤
      clock (p.begun clock meaning check n due s (k + 1)) := by
  rw [begun_succ]
  exact Nat.le_trans (Nat.le_max_left _ _) (startOf_le_begun h k)

theorem decides_iff {deadline : Duration} {outcome : Except Error (Option α)} :
    p.Decides clock meaning check n due s deadline outcome ↔
      (p.yielded clock meaning check n due s 0 = outcome ∧
        clock (p.ended clock meaning check n due s 0) ≤ deadline) ∨
      (p.yielded clock meaning check n due s 0 = .ok none ∧
        p.Decides clock meaning check (n + 1) (p.nextDue due (startOf clock due s))
          (p.ended clock meaning check n due s 0) deadline outcome) := by
  constructor
  · rintro ⟨k, hopen, hyielded, hended⟩
    cases k with
    | zero => exact .inl ⟨hyielded, hended⟩
    | succ k =>
      refine .inr ⟨hopen 0 (Nat.succ_pos k), k, fun m hm => ?_, ?_, ?_⟩
      · exact yielded_succ m ▸ hopen (m + 1) (Nat.succ_lt_succ hm)
      · exact yielded_succ k ▸ hyielded
      · exact ended_succ k ▸ hended
  · rintro (⟨hyielded, hended⟩ | ⟨hfirst, k, hopen, hyielded, hended⟩)
    · exact ⟨0, fun m hm => absurd hm (Nat.not_lt_zero m), hyielded, hended⟩
    · refine ⟨k + 1, fun m hm => ?_, (yielded_succ k).trans hyielded, ended_succ k ▸ hended⟩
      cases m with
      | zero => exact hfirst
      | succ m => exact (yielded_succ m).trans (hopen m (Nat.lt_of_succ_lt_succ hm))

/-- Where the first check is not over by the deadline, nothing decides. -/
theorem not_decides_of_late (h : meaning.Punctual clock) {deadline : Duration}
    (hlate : ¬ clock (p.ended clock meaning check n due s 0) ≤ deadline)
    (outcome : Except Error (Option α)) :
    ¬ p.Decides clock meaning check n due s deadline outcome := by
  rintro ⟨k, -, -, hended⟩
  cases k with
  | zero => exact hlate hended
  | succ k =>
    have hbegun : clock (p.ended clock meaning check n due s 0) ≤
        clock (p.begun clock meaning check n due s (k + 1)) := ended_zero_le_begun h k
    exact hlate (Nat.le_trans hbegun (Nat.le_trans (clock_begun_le_ended h (k + 1)) hended))

/-! ### The checks of a poll -/

/-- A check that ends by the deadline goes as if there were none, and any other is cut off. -/
theorem ran_of_inProcess (h : meaning.Punctual clock)
    (hcheck : (check n).run.Performs Action.IsInProcess) {deadline : Duration}
    (hearly : startOf clock due s ≤ deadline) {outcome : Option (Except Error (Option α))}
    {after : σ} (hran : ((check n).run.within deadline).run meaning
      (beginning clock meaning due s) = (outcome, after)) :
    if clock (p.ended clock meaning check n due s 0) ≤ deadline then
      outcome = some (p.yielded clock meaning check n due s 0) ∧
        after = p.ended clock meaning check n due s 0
    else outcome = none := by
  rw [← clock_beginning h due s] at hearly
  have hwithin := Program.run_within_of_inProcess h hcheck hearly
  simp only [hran, Prod.mk.injEq] at hwithin
  exact hwithin

namespace Course

variable {deadline : Duration} {rounds : List (Round α σ)} {result : Except Error (Option α) × σ}

/-- The checks that a poll makes are the first of those that it would make without a deadline. It
makes a check if all those before it have found nothing and it can begin by the deadline. -/
theorem lt_length_iff (h : meaning.Punctual clock)
    (hchecks : ∀ n, (check n).run.Performs Action.IsInProcess)
    (hc : p.Course clock meaning check deadline n due s rounds result) :
    ∀ k, k < rounds.length ↔ (∀ m < k, p.yielded clock meaning check n due s m = .ok none) ∧
      clock (p.begun clock meaning check n due s k) ≤ deadline := by
  induction hc with
  | @tooLate n due s late =>
    intro k
    refine iff_of_false (Nat.not_lt_zero k) ?_
    rintro ⟨-, hbegun⟩
    exact late (Nat.le_trans (startOf_le_begun h k) hbegun)
  | @last n due s after outcome early ran ends =>
    intro k
    cases k with
    | zero =>
      refine iff_of_true Nat.one_pos ⟨fun m hm => absurd hm (Nat.not_lt_zero m), ?_⟩
      exact clock_beginning h due s ▸ early
    | succ k =>
      refine iff_of_false (fun hk => Nat.not_lt_zero k (Nat.lt_of_succ_lt_succ hk)) ?_
      rintro ⟨hopen, hbegun⟩
      have hran := ran_of_inProcess (p := p) h (hchecks n) early ran
      split at hran
      · exact ends (hopen 0 (Nat.succ_pos k) ▸ hran.1)
      · next hlate => exact hlate (Nat.le_trans (ended_zero_le_begun h k) hbegun)
  | @again n due s after rounds result early ran rest ih =>
    have hran := ran_of_inProcess (p := p) h (hchecks n) early ran
    split at hran
    · obtain ⟨hfirst, rfl⟩ := hran
      intro k
      cases k with
      | zero =>
        refine iff_of_true (Nat.succ_pos _) ⟨fun m hm => absurd hm (Nat.not_lt_zero m), ?_⟩
        exact clock_beginning h due s ▸ early
      | succ k =>
        rw [List.length_cons, Nat.succ_lt_succ_iff, ih k, begun_succ, Nat.forall_lt_succ_left]
        simp only [yielded_succ, ← Option.some.inj hfirst, true_and]
    · exact absurd hran nofun

/-- The checks of a poll begin as they would without a deadline. -/
theorem begun_eq (h : meaning.Punctual clock)
    (hchecks : ∀ n, (check n).run.Performs Action.IsInProcess)
    (hc : p.Course clock meaning check deadline n due s rounds result) :
    ∀ (k : Nat) (hk : k < rounds.length),
      rounds[k].begun = p.begun clock meaning check n due s k := by
  induction hc with
  | tooLate late => exact fun k hk => absurd hk (Nat.not_lt_zero k)
  | last early ran ends =>
    intro k hk
    obtain rfl : k = 0 := Nat.lt_one_iff.mp hk
    rfl
  | @again n due s after rounds result early ran rest ih =>
    have hran := ran_of_inProcess (p := p) h (hchecks n) early ran
    split at hran
    · obtain ⟨-, rfl⟩ := hran
      intro k hk
      cases k with
      | zero => rfl
      | succ k => exact ih k (Nat.lt_of_succ_lt_succ hk)
    · exact absurd hran nofun

/-- What a poll yields, if anything, is what decides it. -/
theorem result_eq_iff (h : meaning.Punctual clock)
    (hchecks : ∀ n, (check n).run.Performs Action.IsInProcess)
    (hc : p.Course clock meaning check deadline n due s rounds result)
    {outcome : Except Error (Option α)} (houtcome : outcome ≠ .ok none) :
    result.1 = outcome ↔ p.Decides clock meaning check n due s deadline outcome := by
  induction hc with
  | @tooLate n due s late =>
    refine iff_of_false houtcome.symm (not_decides_of_late h (fun hended => late ?_) outcome)
    exact Nat.le_trans (startOf_le_begun h 0) (Nat.le_trans (clock_begun_le_ended h 0) hended)
  | @last n due s after yielded early ran ends =>
    have hran := ran_of_inProcess (p := p) h (hchecks n) early ran
    split at hran
    · next hended =>
      obtain ⟨rfl, -⟩ := hran
      have hfirst : p.yielded clock meaning check n due s 0 ≠ .ok none :=
        fun hopen => ends (congrArg some hopen)
      rw [decides_iff]
      simp [hfirst, hended]
    · next hlate =>
      subst hran
      exact iff_of_false houtcome.symm (not_decides_of_late h hlate outcome)
  | @again n due s after rounds result early ran rest ih =>
    have hran := ran_of_inProcess (p := p) h (hchecks n) early ran
    split at hran
    · obtain ⟨hfirst, rfl⟩ := hran
      have hopen := (Option.some.inj hfirst).symm
      refine ih.trans (decides_iff.trans ?_).symm
      simp [hopen, houtcome.symm]
    · exact absurd hran nofun

end Course

/-! ### What a poll yields -/

/-- The checks do not depend on how much time there is for all of them. -/
theorem upcoming_of_interval {p' : Poll} (hinterval : p'.interval = p.interval) (k : Nat) :
    p'.upcoming clock meaning check n due s k = p.upcoming clock meaning check n due s k := by
  induction k generalizing n due s with
  | zero => rfl
  | succ k ih =>
    have hnext : p'.nextDue = p.nextDue := by
      funext due start
      rw [nextDue, nextDue, period, period, hinterval]
    rw [upcoming, upcoming, hnext]
    exact ih

/-- What decides in time decides in more time as well. -/
theorem Decides.mono {deadline deadline' : Duration} {outcome : Except Error (Option α)}
    (h : p.Decides clock meaning check n due s deadline outcome) (hle : deadline ≤ deadline')
    (p' : Poll) (hinterval : p'.interval = p.interval) :
    p'.Decides clock meaning check n due s deadline' outcome := by
  obtain ⟨k, hopen, hyielded, hended⟩ := h
  simp only [yielded, ended, begun, ← upcoming_of_interval hinterval] at hopen hyielded hended
  exact ⟨k, hopen, hyielded, Nat.le_trans hended hle⟩

/-- A poll yields something exactly if that decides it. -/
theorem untilSome_eq_iff (h : meaning.Punctual clock) (p : Poll)
    (hchecks : ∀ n, (check n).run.Performs Action.IsInProcess) (s : σ)
    {outcome : Except Error (Option α)} (houtcome : outcome ≠ .ok none) :
    ((p.untilSome check).run.run meaning s).1 = outcome ↔
      p.Decides clock meaning check 0 (clock s) s (clock s + p.timeout).ceilMillis outcome := by
  obtain ⟨rounds, hcourse⟩ := course_untilSome h p check s
  exact hcourse.result_eq_iff h hchecks houtcome

/-- **What decides a poll** whose checks ask nobody. It yields what the first check yields that does
not leave it at nothing, if that is over by the deadline, and nothing otherwise. Its checks are the
first of those that it would make without a deadline, and only the last of them may decide
something. What has been decided in some time is decided in more time as well. -/
theorem outcome_of_first_decision (h : meaning.Punctual clock) (p : Poll)
    {check : Nat → Task (Option α)} (hchecks : ∀ n, (check n).run.Performs Action.IsInProcess)
    (s : σ) :
    let result := ((p.untilSome check).run.run meaning s).1
    let deadline := (clock s + p.timeout).ceilMillis
    let IsDecision := p.Decides clock meaning check 0 (clock s) s deadline
    (∀ outcome ≠ .ok none, result = outcome ↔ IsDecision outcome) ∧
      ((∀ outcome ≠ .ok none, ¬ IsDecision outcome) → result = .ok none) ∧
      (∃ rounds, p.Course clock meaning check deadline 0 (clock s) s rounds
          ((p.untilSome check).run.run meaning s) ∧
        (∀ k, k < rounds.length ↔
          (∀ m < k, p.yielded clock meaning check 0 (clock s) s m = .ok none) ∧
            clock (p.begun clock meaning check 0 (clock s) s k) ≤ deadline) ∧
        ∀ (k : Nat) (hk : k < rounds.length),
          rounds[k].begun = p.begun clock meaning check 0 (clock s) s k) ∧
      (result ≠ .ok none → ∀ timeout, p.timeout ≤ timeout →
        (({ p with timeout }.untilSome check).run.run meaning s).1 = result) := by
  refine ⟨fun outcome houtcome => untilSome_eq_iff h p hchecks s houtcome, fun hnever => ?_, ?_,
    fun hresult timeout hmore => ?_⟩
  · refine Classical.byContradiction fun hresult => ?_
    exact hnever _ hresult ((untilSome_eq_iff h p hchecks s hresult).mp rfl)
  · obtain ⟨rounds, hcourse⟩ := course_untilSome h p check s
    exact ⟨rounds, hcourse, hcourse.lt_length_iff h hchecks, hcourse.begun_eq h hchecks⟩
  · have hlater : (clock s + p.timeout).ceilMillis ≤ (clock s + timeout).ceilMillis :=
      Duration.ceilMillis_mono (Nat.add_le_add_left hmore _)
    have hdecides := (untilSome_eq_iff h p hchecks s hresult).mp rfl
    exact (untilSome_eq_iff h _ hchecks s hresult).mpr (hdecides.mono hlater { p with timeout } rfl)

/-- A check that finds something the third time, and takes ten milliseconds. -/
def thirdTime (n : Nat) : Task (Option Nat) := do
  let now ← Program.now
  Program.sleepUntil (now + .ofMillis 10)
  return if n = 2 then some n else none

theorem thirdTime_inProcess (n : Nat) : (thirdTime n).run.Performs Action.IsInProcess :=
  .perform trivial fun _ => .perform trivial fun _ => .done _

/-- A check that is over just at the deadline decides, and more time changes nothing. -/
theorem third_time_decides :
    (((Poll.mk (.ofMillis 10) (.ofMillis 30)).untilSome thirdTime).run.run World.perform
        (World.start [])).1 = .ok (some 2) ∧
      ∀ timeout, .ofMillis 30 ≤ timeout →
        (((Poll.mk (.ofMillis 10) timeout).untilSome thirdTime).run.run World.perform
          (World.start [])).1 = .ok (some 2) := by
  obtain ⟨hdecides, -, -, hmore⟩ := outcome_of_first_decision World.punctual
    ⟨.ofMillis 10, .ofMillis 30⟩ thirdTime_inProcess (World.start [])
  have hopen : ∀ m < 2, (Poll.mk (.ofMillis 10) (.ofMillis 30)).yielded World.clock World.perform
      thirdTime 0 (.ofMillis 0) (World.start []) m = .ok none
    | 0, _ | 1, _ => rfl
  have hthird := (hdecides (.ok (some 2)) nofun).mpr ⟨2, hopen, rfl, by decide⟩
  refine ⟨hthird, fun timeout htimeout => ?_⟩
  exact (hmore (hthird ▸ nofun) timeout htimeout).trans hthird

end Poll

end CustomResource
