import CustomResource.Proofs.Program.Polling
import CustomResource.Proofs.Simulation.World

/-!
# When a poll checks

The checks of a poll are due at fixed distances, and a check that begins more than the tolerance
late puts off those after it. Here a poll is followed check by check, with the states of the world
in which each check begins and ends, and from the rule for a single check follows what holds of all
of them: none begins too early, they keep their distance, and so there are few. None of this depends
on what the checks do or how long they take, and the number of checks to which the program of a poll
is limited is never reached.

## Main definitions

* `Duration.IsWhole`: the instants at which a timer can fire.
* `Meaning.Punctual`: the worlds in which nothing runs late by itself.
* `Meaning.Rounded`: the worlds in which requests are over at such instants.
* `Poll.Round`: a check as it went.
* `Poll.Course`: the rounds of a poll, by the rule for a single check.
* `Poll.KeepsSchedule`: the bounds on when the checks begin.

## Main results

* `Poll.course_untilSome`: a poll consists of such rounds.
* `Poll.isWhole_untilSome`: its requests are sent, and are over, at instants at which a timer can
  fire.
* `Poll.checks_keep_schedule`: and these keep the schedule.
-/

namespace CustomResource

namespace Duration

theorem le_iff {a b : Duration} : a ≤ b ↔ a.nanos ≤ b.nanos := Iff.rfl

theorem lt_iff {a b : Duration} : a < b ↔ a.nanos < b.nanos := Iff.rfl

@[simp] theorem nanos_add (a b : Duration) : (a + b).nanos = a.nanos + b.nanos := rfl

theorem nanos_ceilMillis (d : Duration) :
    d.ceilMillis.nanos = (d.nanos + 999999) / 1000000 * 1000000 := rfl

/-- A timer fires less than a millisecond after its time. -/
theorem ceilMillis_lt (d : Duration) : d.ceilMillis.nanos < d.nanos + 1000000 := by
  rw [nanos_ceilMillis]
  omega

theorem ceilMillis_mono {a b : Duration} (h : a ≤ b) : a.ceilMillis ≤ b.ceilMillis := by
  rw [le_iff] at h
  rw [le_iff, nanos_ceilMillis, nanos_ceilMillis]
  omega

theorem max_eq_right {a b : Duration} (h : a ≤ b) : a.max b = b :=
  congrArg Duration.mk (Nat.max_eq_right h)

/-- An instant at which a timer can fire. -/
def IsWhole (d : Duration) : Prop := d.ceilMillis.nanos = d.nanos

theorem isWhole_ceilMillis (d : Duration) : d.ceilMillis.IsWhole := by
  rw [IsWhole, nanos_ceilMillis, nanos_ceilMillis]
  omega

theorem IsWhole.max {a b : Duration} (ha : a.IsWhole) (hb : b.IsWhole) : (a.max b).IsWhole := by
  rcases Nat.le_total a.nanos b.nanos with hle | hle
  · rw [max_eq_right hle]
    exact hb
  · rw [show a.max b = a from congrArg Duration.mk (Nat.max_eq_left hle)]
    exact ha

/-- An instant at which a timer can fire comes before another one fires only if it comes before the
time of that one. -/
theorem IsWhole.lt_ceilMillis_iff {t d : Duration} (h : t.IsWhole) : t < d.ceilMillis ↔ t < d := by
  rw [IsWhole, nanos_ceilMillis] at h
  rw [lt_iff, lt_iff, nanos_ceilMillis]
  omega

end Duration

/-! ### Worlds in which nothing runs late -/

/-- A world with a clock in which nothing runs late by itself: a look at the clock changes nothing,
messages take no time, and a wait is over at its instant, or at once where that has passed. -/
structure Meaning.Punctual {σ : Type} (clock : σ → Duration) (meaning : Meaning σ) : Prop where
  now (s : σ) : meaning .now s = (clock s, s)
  log (level : LogLevel) (message : String) (s : σ) :
    clock (meaning (.log level message) s).2 = clock s
  sleep (instant : Duration) (s : σ) :
    clock (meaning (.sleepUntil instant) s).2 = (clock s).max instant
  monotone (action : Action) (s : σ) : clock s ≤ clock (meaning action s).2

theorem World.punctual : Meaning.Punctual World.clock World.perform where
  now _ := rfl
  log _ _ _ := rfl
  sleep _ _ := rfl
  monotone := World.timed.monotone

/-- A world with a clock in which requests are over at instants at which a timer can fire, if they are
sent at such instants and are given up at such instants. -/
structure Meaning.Rounded {σ : Type} (clock : σ → Duration) (meaning : Meaning σ) : Prop where
  send {r : Request} {deadline : Duration} {s : σ} (hs : (clock s).IsWhole)
    (hdeadline : deadline.IsWhole) : (clock (meaning (.send r (some deadline)) s).2).IsWhole

theorem World.rounded : Meaning.Rounded World.clock World.perform where
  send {r deadline w} hs hdeadline := by
    change (w.send r (some deadline)).2.clock.IsWhole
    by_cases hover : CustomResource.isOver (some deadline) w.clock = true
    · rw [World.send_of_over hover]
      exact hs
    · rw [World.send_of_not_over hover]
      split
      · exact Duration.isWhole_ceilMillis _
      · exact hdeadline

/-- Time does not run back while a program runs. -/
theorem Meaning.Punctual.le_clock_run {α σ : Type} {clock : σ → Duration} {meaning : Meaning σ}
    (h : meaning.Punctual clock) (p : Program α) (s : σ) :
    clock s ≤ clock (p.run meaning s).2 := by
  induction p generalizing s with
  | done value => exact Nat.le_refl _
  | perform action next ih => exact Nat.le_trans (h.monotone action s) (ih _ _)

namespace Poll

variable {α σ : Type} {clock : σ → Duration} {meaning : Meaning σ}

/-! ### The distance of the checks -/

/-- A millisecond at least lies between two checks. -/
theorem le_period (p : Poll) : 1000000 ≤ p.period.nanos := by
  have hmax : 1000000 ≤ (p.interval.max (.ofMillis 1)).nanos := Nat.le_max_right _ _
  exact Nat.le_min.mpr ⟨hmax, by decide⟩

/-- An interval to which a timer can be set is the distance of the checks, or else the shortest
distance there is. -/
theorem period_eq {p : Poll} (h : p.interval ≤ .longestTimer) :
    p.period = p.interval.max (.ofMillis 1) := by
  have hmax : (p.interval.max (.ofMillis 1)).nanos ≤ Duration.longestTimer.nanos :=
    Nat.max_le.mpr ⟨h, by decide⟩
  exact congrArg Duration.mk (Nat.min_eq_left hmax)

/-- No timer can be set to a longer interval. -/
theorem period_eq_longestTimer {p : Poll} (h : .longestTimer ≤ p.interval) :
    p.period = .longestTimer := by
  have hmax : Duration.longestTimer.nanos ≤ (p.interval.max (.ofMillis 1)).nanos :=
    Nat.le_trans h (Nat.le_max_left _ _)
  exact congrArg Duration.mk (Nat.min_eq_right hmax)

/-- With an interval of a billion seconds the checks are due every thirty years. -/
example (timeout : Duration) :
    (Poll.mk (.ofSeconds 1000000000) timeout).period = .ofSeconds 946080000 :=
  period_eq_longestTimer (show Duration.longestTimer ≤ .ofSeconds 1000000000 by decide)

/-- The instant at which the `k`-th of some checks at a fixed distance is due. -/
def appointed (distance start : Duration) (k : Nat) : Duration :=
  ⟨start.nanos + k * distance.nanos⟩

@[simp] theorem appointed_zero (distance start : Duration) :
    appointed distance start 0 = start := by
  simp [appointed]

theorem appointed_succ (distance start : Duration) (k : Nat) :
    appointed distance start (k + 1) = appointed distance (start + distance) k := by
  simp only [appointed, Duration.nanos_add, Duration.mk.injEq, Nat.add_mul]
  omega

theorem appointed_mono (distance : Duration) {a b : Duration} (h : a ≤ b) (k : Nat) :
    appointed distance a k ≤ appointed distance b k := Nat.add_le_add_right h _

/-- A check is due at least one period after the one before it was. -/
theorem le_nextDue (p : Poll) {due start : Duration} (h : due ≤ start) :
    due + p.period ≤ p.nextDue due start := by
  rw [nextDue]
  rw [Duration.le_iff] at h ⊢
  split
  · simpa using h
  · exact Nat.le_refl _

/-- A check is due one period after the one before it has begun, up to the tolerance. -/
theorem start_le_nextDue (p : Poll) (due start : Duration) :
    start + p.period ≤ p.nextDue due start + tolerance := by
  rw [nextDue]
  split
  · exact Duration.le_add_right _ _
  · next hlate =>
    rw [Duration.lt_iff] at hlate
    rw [Duration.le_iff]
    simp only [Duration.nanos_add] at hlate ⊢
    omega

/-- A check that begins as soon as a timer can fire does not put off the next one. -/
theorem nextDue_ceilMillis (p : Poll) (due : Duration) :
    p.nextDue due due.ceilMillis = due + p.period := by
  have hceil := due.ceilMillis_lt
  refine if_neg ?_
  rw [Duration.lt_iff]
  simp only [Duration.nanos_add, tolerance, Duration.ofMillis]
  omega

/-! ### One check after another -/

/-- A check as it went: the states in which it began and ended, and what came of it. Nothing comes
of one that was cut off. -/
structure Round (α σ : Type) where
  begun : σ
  ended : σ
  outcome : Option (Except Error (Option α))

/-- The instant at which a check begins, if it can begin in some state and is due at an instant. -/
def startOf (clock : σ → Duration) (due : Duration) (s : σ) : Duration :=
  (clock s).max due.ceilMillis

/-- The state in which a check begins: the poll has waited for it. -/
def beginning (clock : σ → Duration) (meaning : Meaning σ) (due : Duration) (s : σ) : σ :=
  (meaning (.sleepUntil (startOf clock due s)) s).2

/-- How a poll goes on from its `n`-th check, which is due at an instant: its rounds, and what it
yields and leaves behind. Nothing begins after the deadline, and a check is the last if it decides
something or is cut off. -/
inductive Course (p : Poll) (clock : σ → Duration) (meaning : Meaning σ)
    (check : Nat → Task (Option α)) (deadline : Duration) :
    Nat → Duration → σ → List (Round α σ) → Except Error (Option α) × σ → Prop
  | tooLate {n : Nat} {due : Duration} {s : σ} (late : ¬ startOf clock due s ≤ deadline) :
      Course p clock meaning check deadline n due s []
        (.ok none, (meaning (.sleepUntil deadline) s).2)
  | last {n : Nat} {due : Duration} {s ended : σ} {outcome : Option (Except Error (Option α))}
      (early : startOf clock due s ≤ deadline)
      (ran : ((check n).run.within deadline).run meaning (beginning clock meaning due s) =
        (outcome, ended)) (ends : outcome ≠ some (.ok none)) :
      Course p clock meaning check deadline n due s
        [⟨beginning clock meaning due s, ended, outcome⟩] (outcome.getD (.ok none), ended)
  | again {n : Nat} {due : Duration} {s ended : σ} {rounds : List (Round α σ)}
      {result : Except Error (Option α) × σ} (early : startOf clock due s ≤ deadline)
      (ran : ((check n).run.within deadline).run meaning (beginning clock meaning due s) =
        (some (.ok none), ended))
      (rest : Course p clock meaning check deadline (n + 1)
        (p.nextDue due (startOf clock due s)) ended rounds result) :
      Course p clock meaning check deadline n due s
        (⟨beginning clock meaning due s, ended, some (.ok none)⟩ :: rounds) result

theorem clock_beginning (h : meaning.Punctual clock) (due : Duration) (s : σ) :
    clock (beginning clock meaning due s) = startOf clock due s := by
  have hpast : clock s ≤ startOf clock due s := Nat.le_max_left _ _
  rw [beginning, h.sleep]
  exact Duration.max_eq_right hpast

theorem due_le_startOf (clock : σ → Duration) (due : Duration) (s : σ) :
    due ≤ startOf clock due s :=
  Nat.le_trans due.le_ceilMillis (Nat.le_max_right _ _)

theorem due_le_beginning (h : meaning.Punctual clock) (due : Duration) (s : σ) :
    due ≤ clock (beginning clock meaning due s) :=
  clock_beginning h due s ▸ due_le_startOf clock due s

theorem clock_le_beginning (h : meaning.Punctual clock) (due : Duration) (s : σ) :
    clock s ≤ clock (beginning clock meaning due s) :=
  clock_beginning h due s ▸ Nat.le_max_left _ _

/-- A check that cannot begin before the deadline does not begin. -/
theorem run_checks_of_late (h : meaning.Punctual clock) (p : Poll) (check : Nat → Task (Option α))
    (deadline : Duration) (fuel n : Nat) {due : Duration} {s : σ}
    (hlate : ¬ startOf clock due s ≤ deadline) :
    ((p.checks check (fuel + 1) n due).run.within deadline).run meaning s =
      (none, (meaning (.sleepUntil deadline) s).2) := by
  have hnow : Program.now.run meaning s = (clock s, s) := h.now s
  rw [run_checks_succ, Program.within_now, Program.run_bind, hnow, Program.within_sleepUntil,
    if_neg (by exact hlate)]
  rfl

/-- A check that can begin before the deadline is made, and after it the poll goes on. -/
theorem run_checks_of_early (h : meaning.Punctual clock) (p : Poll)
    (check : Nat → Task (Option α)) (fuel n : Nat) {deadline due : Duration} {s ended : σ}
    {outcome : Option (Except Error (Option α))} (hearly : startOf clock due s ≤ deadline)
    (hran : ((check n).run.within deadline).run meaning (beginning clock meaning due s) =
      (outcome, ended)) :
    ((p.checks check (fuel + 1) n due).run.within deadline).run meaning s =
      (Program.andThenWithin deadline
        (goOn (p.checks check fuel (n + 1) (p.nextDue due (startOf clock due s))))
        outcome).run meaning ended := by
  have hnow : Program.now.run meaning s = (clock s, s) := h.now s
  have hbegun : ((Program.sleepUntil ((clock s).max due.ceilMillis)).run meaning s).2 =
      beginning clock meaning due s := rfl
  rw [run_checks_succ, Program.within_now, Program.run_bind, hnow, Program.within_sleepUntil,
    if_pos (by exact hearly), Program.run_bind, hbegun, Program.within_bind, Program.run_bind, hran]
  rfl

/-- The induction is on the number of checks to which the program is limited, which is beyond the
deadline. -/
theorem course_checks (h : meaning.Punctual clock) (p : Poll) (check : Nat → Task (Option α))
    {deadline : Duration} (fuel n : Nat) {due : Duration} (s : σ)
    (hfuel : deadline < appointed p.period due fuel) :
    ∃ rounds, p.Course clock meaning check deadline n due s rounds
      ((((p.checks check fuel n due).run.within deadline).run meaning s).1.getD (.ok none),
        (((p.checks check fuel n due).run.within deadline).run meaning s).2) := by
  induction fuel generalizing n due s with
  | zero =>
    rw [appointed_zero] at hfuel
    have hwait : ¬ due.ceilMillis ≤ deadline :=
      Nat.not_le.mpr (Nat.lt_of_lt_of_le hfuel due.le_ceilMillis)
    refine ⟨[], ?_⟩
    rw [run_checks_zero, Program.within_sleepUntil, if_neg hwait]
    exact .tooLate (Nat.not_le.mpr (Nat.lt_of_lt_of_le hfuel (due_le_startOf clock due s)))
  | succ fuel ih =>
    by_cases hearly : startOf clock due s ≤ deadline
    · cases hran : ((check n).run.within deadline).run meaning (beginning clock meaning due s) with
      | mk outcome ended =>
        rw [run_checks_of_early h p check fuel n hearly hran]
        rcases outcome with _ | (e | (_ | value))
        · exact ⟨_, .last hearly hran nofun⟩
        · exact ⟨_, .last hearly hran nofun⟩
        · have hnext := p.le_nextDue (due_le_startOf clock due s)
          have hfuel' :
              deadline < appointed p.period (p.nextDue due (startOf clock due s)) fuel := by
            rw [appointed_succ] at hfuel
            exact Nat.lt_of_lt_of_le hfuel (appointed_mono p.period hnext fuel)
          obtain ⟨rounds, hrounds⟩ := ih (n + 1) ended hfuel'
          exact ⟨_, .again hearly hran hrounds⟩
        · exact ⟨_, .last hearly hran nofun⟩
    · rw [run_checks_of_late h p check deadline fuel n hearly]
      exact ⟨[], .tooLate hearly⟩

/-- The deadline is over before the number of checks is reached to which the program is limited. -/
theorem deadline_lt_appointed (p : Poll) (start : Duration) :
    (start + p.timeout).ceilMillis < appointed p.period start p.mostChecks := by
  have hperiod := p.le_period
  have hceil := (start + p.timeout).ceilMillis_lt
  have htimeout : p.timeout.nanos ≤ p.timeout.ceilMillis.nanos := p.timeout.le_ceilMillis
  have hmost := Nat.lt_div_mul_add (a := p.timeout.ceilMillis.nanos) (b := p.period.nanos)
    (by omega)
  rw [Duration.lt_iff]
  simp only [appointed, mostChecks, Nat.add_mul, Duration.nanos_add] at *
  omega

/-- **A poll goes check by check**, by the rule for a single check. -/
theorem course_untilSome (h : meaning.Punctual clock) (p : Poll) (check : Nat → Task (Option α))
    (s : σ) : ∃ rounds, p.Course clock meaning check (clock s + p.timeout).ceilMillis 0 (clock s) s
      rounds ((p.untilSome check).run.run meaning s) := by
  have hnow : Program.now.run meaning s = (clock s, s) := h.now s
  rw [run_untilSome, Program.run_bind, hnow, Program.run_bind, Program.run_pure]
  exact course_checks h p check p.mostChecks 0 _ (p.deadline_lt_appointed (clock s))

/-! ### Whole milliseconds -/

/-- The requests of a poll are sent, and are over, at instants at which a timer can fire. The
induction is on the number of checks that are left: a check begins at such an instant if it is put
off until one, or if the one before it has ended at one. -/
theorem isWhole_of_checks (htimed : meaning.Timed clock) (h : meaning.Punctual clock)
    (hrounded : meaning.Rounded clock) (p : Poll) {check : Nat → Task (Option α)} {r : Request}
    {β : Type} {read : Answer → Except Api.Error β} {accept : β → Option α}
    (hcalls : ∀ n, (check n).run.Calls r read fun outcome =>
      (outcome.mapError .request).map accept) (hr : r.check = .ok ())
    {deadline : Duration} (hdeadline : deadline.IsWhole) (fuel n : Nat) {due : Duration} {s : σ}
    (hstart : (startOf clock due s).IsWhole) :
    ∀ e ∈ ((p.checks check fuel n due).run.within deadline).exchanges clock meaning s,
      e.sent.IsWhole ∧ e.closed.IsWhole := by
  induction fuel generalizing n due s with
  | zero =>
    rw [run_checks_zero, Program.within_sleepUntil]
    split <;> exact fun e he => absurd he List.not_mem_nil
  | succ fuel ih =>
    have hnow : Program.now.run meaning s = (clock s, s) := h.now s
    rw [run_checks_succ, Program.within_now, Program.exchanges_bind, Program.exchanges_now,
      List.nil_append, hnow, Program.within_sleepUntil]
    split
    · have hbegun : ((Program.sleepUntil ((clock s).max due.ceilMillis)).run meaning s).2 =
          beginning clock meaning due s := rfl
      have hbegins : (clock (beginning clock meaning due s)).IsWhole :=
        clock_beginning h due s ▸ hstart
      have hends : clock (((check n).run.within deadline).run meaning
          (beginning clock meaning due s)).2 =
          clock (meaning (.send r (some deadline)) (beginning clock meaning due s)).2 :=
        (hcalls n).run_within_snd hr htimed.log deadline _
      have hsend : (clock (meaning (.send r (some deadline))
          (beginning clock meaning due s)).2).IsWhole := hrounded.send hbegins hdeadline
      rw [Program.exchanges_bind, Program.exchanges_sleepUntil, List.nil_append, hbegun,
        Program.within_bind, Program.exchanges_bind, (Asks.of_calls (hcalls n)).exchanges, if_pos (by rw [hr]; rfl)]
      refine List.forall_mem_append.mpr ⟨fun e he => ?_, ?_⟩
      · obtain ⟨hsent, hclosed⟩ := Program.times_of_exchange? (Option.mem_toList.mp he)
        exact ⟨hsent ▸ hbegins, hclosed ▸ hsend⟩
      · generalize ((check n).run.within deadline).run meaning (beginning clock meaning due s) =
          ran at hends ⊢
        obtain ⟨outcome, ended⟩ := ran
        have hended : (clock ended).IsWhole := hends ▸ hsend
        rcases outcome with _ | (e | (_ | value))
        · exact fun e he => absurd he List.not_mem_nil
        · exact fun e he => absurd he List.not_mem_nil
        · exact ih (n + 1) (hended.max (Duration.isWhole_ceilMillis _))
        · exact fun e he => absurd he List.not_mem_nil
    · exact fun e he => absurd he List.not_mem_nil

/-- The requests of a poll are sent, and are over, at instants at which a timer can fire. -/
theorem isWhole_untilSome (htimed : meaning.Timed clock) (h : meaning.Punctual clock)
    (hrounded : meaning.Rounded clock) (p : Poll) {check : Nat → Task (Option α)} {r : Request}
    {β : Type} {read : Answer → Except Api.Error β} {accept : β → Option α}
    (hcalls : ∀ n, (check n).run.Calls r read fun outcome =>
      (outcome.mapError .request).map accept) (hr : r.check = .ok ()) (s : σ) :
    ∀ e ∈ (p.untilSome check).run.exchanges clock meaning s,
      e.sent.IsWhole ∧ e.closed.IsWhole := by
  have hnow : Program.now.run meaning s = (clock s, s) := h.now s
  have hstart : startOf clock (clock s) s = (clock s).ceilMillis :=
    Duration.max_eq_right (clock s).le_ceilMillis
  rw [run_untilSome, Program.exchanges_bind, Program.exchanges_now, List.nil_append, hnow,
    Program.exchanges_bind, Program.exchanges_pure, List.append_nil]
  exact isWhole_of_checks htimed h hrounded p hcalls hr (Duration.isWhole_ceilMillis _) _ _
    (hstart ▸ Duration.isWhole_ceilMillis _)

/-! ### The bounds on when the checks begin -/

/-- The rounds of a poll that has begun at an instant keep a distance: no check begins before it is
due or before the one before it has ended, and checks that begin at once after a late one are no
closer than the tolerance allows. So only few begin up to any instant, and before the deadline. If
all checks are over at once, each begins as soon as a timer can fire. -/
structure KeepsSchedule (distance : Duration) (clock : σ → Duration) (start deadline : Duration)
    (rounds : List (Round α σ)) : Prop where
  notBefore : ∀ (k : Nat) (hk : k < rounds.length),
    appointed distance start k ≤ clock rounds[k].begun
  oneByOne : ∀ (k : Nat) (hk : k + 1 < rounds.length),
    clock rounds[k].begun ≤ clock rounds[k].ended ∧
      clock rounds[k].ended ≤ clock rounds[k + 1].begun
  apart : ∀ (k : Nat) (hk : k + 1 < rounds.length),
    clock rounds[k].begun + distance ≤ clock rounds[k + 1].begun + tolerance
  inTime : ∀ r ∈ rounds, clock r.begun ≤ deadline
  few : ∀ t : Duration, (rounds.filter fun r => clock r.begun ≤ start + t).length ≤
    t.nanos / distance.nanos + 1
  finite : rounds.length ≤ (deadline.nanos - start.nanos) / distance.nanos + 1
  prompt : (∀ r ∈ rounds, clock r.ended = clock r.begun) → ∀ (k : Nat) (hk : k < rounds.length),
    clock rounds[k].begun = (appointed distance start k).ceilMillis

namespace Course

variable {p : Poll} {check : Nat → Task (Option α)} {deadline due : Duration} {n : Nat} {s : σ}
  {rounds : List (Round α σ)} {result : Except Error (Option α) × σ}

/-- The first check begins as soon as it is due and can begin. -/
theorem head_begun (hc : p.Course clock meaning check deadline n due s rounds result)
    (hpos : 0 < rounds.length) : rounds[0].begun = beginning clock meaning due s := by
  cases hc with
  | tooLate late => exact absurd hpos (Nat.not_lt_zero _)
  | last early ran ends => rfl
  | again early ran rest => rfl

theorem clock_begun_le (h : meaning.Punctual clock)
    (hc : p.Course clock meaning check deadline n due s rounds result) :
    ∀ r ∈ rounds, clock r.begun ≤ deadline := by
  induction hc with
  | tooLate late => nofun
  | @last n due s ended outcome early ran ends =>
    refine List.forall_mem_singleton.mpr ?_
    rw [clock_beginning h]
    exact early
  | @again n due s ended rounds result early ran rest ih =>
    refine List.forall_mem_cons.mpr ⟨?_, ih⟩
    rw [clock_beginning h]
    exact early

/-- A check begins no earlier than if none before it had been late. -/
theorem appointed_le_begun (h : meaning.Punctual clock)
    (hc : p.Course clock meaning check deadline n due s rounds result) :
    ∀ (k : Nat) (hk : k < rounds.length), appointed p.period due k ≤ clock rounds[k].begun := by
  induction hc with
  | tooLate late => exact fun k hk => absurd hk (Nat.not_lt_zero k)
  | @last n due s ended outcome early ran ends =>
    intro k hk
    obtain rfl : k = 0 := Nat.lt_one_iff.mp hk
    rw [appointed_zero]
    exact due_le_beginning h due s
  | @again n due s ended rounds result early ran rest ih =>
    intro k hk
    cases k with
    | zero =>
      rw [appointed_zero]
      exact due_le_beginning h due s
    | succ k =>
      have hnext := p.le_nextDue (due_le_startOf clock due s)
      rw [appointed_succ]
      exact Nat.le_trans (appointed_mono _ hnext k) (ih k (Nat.lt_of_succ_lt_succ hk))

/-- One check after the other: the next one begins when it is due, but not before this one has
ended. -/
theorem consecutive (h : meaning.Punctual clock)
    (hc : p.Course clock meaning check deadline n due s rounds result) :
    ∀ (k : Nat) (hk : k + 1 < rounds.length),
      clock rounds[k].begun ≤ clock rounds[k].ended ∧
        clock rounds[k].ended ≤ clock rounds[k + 1].begun ∧
        clock rounds[k].begun + p.period ≤ clock rounds[k + 1].begun + tolerance := by
  induction hc with
  | tooLate late => exact fun k hk => absurd hk (Nat.not_lt_zero _)
  | last early ran ends => exact fun k hk => absurd (Nat.lt_of_succ_lt_succ hk) (Nat.not_lt_zero k)
  | @again n due s ended rounds result early ran rest ih =>
    intro k hk
    cases k with
    | zero =>
      have hpos : 0 < rounds.length := Nat.lt_of_succ_lt_succ hk
      have hnext := rest.head_begun hpos
      have hended : clock (beginning clock meaning due s) ≤ clock ended := by
        have hrun := h.le_clock_run ((check n).run.within deadline) (beginning clock meaning due s)
        rwa [ran] at hrun
      have hdue := due_le_beginning h (p.nextDue due (startOf clock due s)) ended
      have hapart := p.start_le_nextDue due (startOf clock due s)
      refine ⟨hended, ?_, ?_⟩
      · exact hnext ▸ clock_le_beginning h _ _
      · change clock (beginning clock meaning due s) + p.period ≤ clock rounds[0].begun + tolerance
        rw [hnext, clock_beginning h due s]
        exact Nat.le_trans hapart (Nat.add_le_add_right hdue _)
    | succ k => exact ih k (Nat.lt_of_succ_lt_succ hk)

/-- Checks that are over at once begin as soon as a timer can fire. The induction is carried by the
next check not being due any earlier than the one before it has ended. -/
theorem begun_of_prompt (h : meaning.Punctual clock)
    (hc : p.Course clock meaning check deadline n due s rounds result)
    (hdue : clock s ≤ due.ceilMillis) (hprompt : ∀ r ∈ rounds, clock r.ended = clock r.begun) :
    ∀ (k : Nat) (hk : k < rounds.length),
      clock rounds[k].begun = (appointed p.period due k).ceilMillis := by
  induction hc with
  | tooLate late => exact fun k hk => absurd hk (Nat.not_lt_zero k)
  | @last n due s ended outcome early ran ends =>
    intro k hk
    obtain rfl : k = 0 := Nat.lt_one_iff.mp hk
    rw [appointed_zero]
    exact (clock_beginning h due s).trans (Duration.max_eq_right hdue)
  | @again n due s ended rounds result early ran rest ih =>
    have hstart : startOf clock due s = due.ceilMillis := Duration.max_eq_right hdue
    have hbegun : clock (beginning clock meaning due s) = due.ceilMillis :=
      (clock_beginning h due s).trans hstart
    obtain ⟨hended, hprompt⟩ := List.forall_mem_cons.mp hprompt
    have hnext : p.nextDue due (startOf clock due s) = due + p.period := by
      rw [hstart, p.nextDue_ceilMillis]
    rw [hnext] at ih
    have hlater : clock ended ≤ (due + p.period).ceilMillis := by
      rw [show clock ended = due.ceilMillis from hended.trans hbegun]
      exact Duration.ceilMillis_mono (Duration.le_add_right _ _)
    intro k hk
    cases k with
    | zero =>
      rw [appointed_zero]
      exact hbegun
    | succ k =>
      rw [appointed_succ]
      exact ih hlater hprompt k (Nat.lt_of_succ_lt_succ hk)

end Course

/-- What begins no earlier than it is due has only begun a few times up to any instant: all of it
stands in front. -/
theorem length_filter_le {distance start : Duration} (hdistance : 0 < distance.nanos)
    {rounds : List (Round α σ)} (hdue : ∀ (k : Nat) (hk : k < rounds.length),
      appointed distance start k ≤ clock rounds[k].begun) (t : Duration) :
    (rounds.filter fun r => clock r.begun ≤ start + t).length ≤
      t.nanos / distance.nanos + 1 := by
  let front := t.nanos / distance.nanos + 1
  have hlate : (rounds.drop front).filter (fun r => clock r.begun ≤ start + t) = [] := by
    refine List.filter_eq_nil_iff.mpr fun r hr => ?_
    obtain ⟨k, hk, rfl⟩ := List.mem_iff_getElem.mp hr
    rw [List.length_drop] at hk
    have hbegun := hdue (front + k) (by omega)
    have hover : t.nanos < (front + k) * distance.nanos := by
      refine Nat.lt_of_lt_of_le (Nat.lt_div_mul_add hdistance) ?_
      rw [← Nat.succ_mul]
      exact Nat.mul_le_mul_right _ (Nat.le_add_right _ _)
    rw [List.getElem_drop, decide_eq_true_iff, Duration.le_iff, Duration.nanos_add]
    rw [Duration.le_iff, appointed] at hbegun
    dsimp only at hbegun
    omega
  rw [← List.take_append_drop front rounds, List.filter_append, hlate, List.append_nil]
  exact Nat.le_trans (List.length_filter_le _ _) (List.length_take_le _ _)

/-- The rounds of a poll keep its own distance. -/
theorem Course.keepsSchedule (h : meaning.Punctual clock) {p : Poll} {check : Nat → Task (Option α)}
    {deadline start : Duration} {s : σ} {rounds : List (Round α σ)}
    {result : Except Error (Option α) × σ} (hs : clock s ≤ start)
    (hc : p.Course clock meaning check deadline 0 start s rounds result) :
    KeepsSchedule p.period clock start deadline rounds where
  notBefore := hc.appointed_le_begun h
  oneByOne k hk := ⟨(hc.consecutive h k hk).1, (hc.consecutive h k hk).2.1⟩
  apart k hk := (hc.consecutive h k hk).2.2
  inTime := hc.clock_begun_le h
  few := length_filter_le (Nat.lt_of_lt_of_le (by decide) p.le_period) (hc.appointed_le_begun h)
  finite := by
    have hfew := length_filter_le (Nat.lt_of_lt_of_le (by decide) p.le_period)
      (hc.appointed_le_begun h) ⟨deadline.nanos - start.nanos⟩
    rwa [List.filter_eq_self.mpr] at hfew
    intro r hr
    have hbegun := hc.clock_begun_le h r hr
    rw [Duration.le_iff] at hbegun
    rw [decide_eq_true_iff, Duration.le_iff, Duration.nanos_add]
    dsimp only
    omega
  prompt := hc.begun_of_prompt h (Nat.le_trans hs start.le_ceilMillis)

/-- A lone check keeps any distance. -/
theorem KeepsSchedule.of_lone {distance distance' start deadline : Duration}
    {rounds : List (Round α σ)} (h : KeepsSchedule distance clock start deadline rounds)
    (hlone : rounds.length ≤ 1) : KeepsSchedule distance' clock start deadline rounds where
  notBefore k hk := by
    obtain rfl : k = 0 := Nat.lt_one_iff.mp (Nat.lt_of_lt_of_le hk hlone)
    simpa using h.notBefore 0 hk
  oneByOne := h.oneByOne
  apart k hk := absurd (Nat.lt_of_lt_of_le hk hlone) (Nat.not_lt.mpr (Nat.le_add_left 1 k))
  inTime := h.inTime
  few t := Nat.le_trans (List.length_filter_le _ _) (Nat.le_trans hlone (Nat.le_add_left 1 _))
  finite := Nat.le_trans hlone (Nat.le_add_left 1 _)
  prompt hprompt k hk := by
    obtain rfl : k = 0 := Nat.lt_one_iff.mp (Nat.lt_of_lt_of_le hk hlone)
    simpa using h.prompt hprompt 0 hk

/-- A timer can be set to the interval, or else the poll is over before any timer that is set from
its start on. -/
def InRange (p : Poll) (start : Duration) : Prop :=
  p.interval ≤ .longestTimer ∨ (start + p.timeout).ceilMillis < start + .longestTimer

/-- Where no timer can be set to the interval, the poll is over before a second check. -/
theorem KeepsSchedule.of_inRange {p : Poll} {start : Duration} {rounds : List (Round α σ)}
    (h : KeepsSchedule p.period clock start (start + p.timeout).ceilMillis rounds)
    (hrange : p.InRange start) : KeepsSchedule (p.interval.max (.ofMillis 1)) clock start
      (start + p.timeout).ceilMillis rounds := by
  by_cases hinterval : p.interval ≤ .longestTimer
  · rwa [← period_eq hinterval]
  · have hperiod := period_eq_longestTimer (Nat.le_of_lt (Nat.not_le.mp hinterval))
    have hover := hrange.resolve_left hinterval
    refine h.of_lone (Nat.not_lt.mp fun htwo => ?_)
    have hdue := h.notBefore 1 htwo
    have hbegun := h.inTime _ (List.getElem_mem htwo)
    rw [appointed_succ, appointed_zero, hperiod] at hdue
    exact Nat.lt_irrefl _ (Nat.lt_of_le_of_lt (Nat.le_trans hdue hbegun) hover)

/-- **The checks of a poll keep the schedule**, whatever they do and however long they take. -/
theorem checks_keep_schedule (h : meaning.Punctual clock) (p : Poll)
    (check : Nat → Task (Option α)) (s : σ) :
    ∃ rounds, p.Course clock meaning check (clock s + p.timeout).ceilMillis 0 (clock s) s rounds
        ((p.untilSome check).run.run meaning s) ∧
      KeepsSchedule p.period clock (clock s) (clock s + p.timeout).ceilMillis rounds ∧
      (p.InRange (clock s) → KeepsSchedule (p.interval.max (.ofMillis 1)) clock (clock s)
        (clock s + p.timeout).ceilMillis rounds) := by
  obtain ⟨rounds, hcourse⟩ := course_untilSome h p check s
  have hkeeps := hcourse.keepsSchedule h (Nat.le_refl _)
  exact ⟨rounds, hcourse, hkeeps, hkeeps.of_inRange⟩

/-- A check that finds nothing, and takes fourteen milliseconds for it. -/
def slowCheck (_ : Nat) : Task (Option Unit) := do
  let now ← Program.now
  Program.sleepUntil (now + .ofMillis 14)
  return none

/-- Checks that take longer than the interval. -/
theorem slow_checks_keep_schedule :
    ∃ rounds, (Poll.mk (.ofMillis 10) (.ofMillis 35)).Course World.clock World.perform slowCheck
        (.ofMillis 35) 0 (.ofMillis 0) (World.start []) rounds
        (((Poll.mk (.ofMillis 10) (.ofMillis 35)).untilSome slowCheck).run.run World.perform
          (World.start [])) ∧
      KeepsSchedule (.ofMillis 10) World.clock (.ofMillis 0) (.ofMillis 35) rounds ∧
      rounds.length ≤ 4 := by
  obtain ⟨rounds, hcourse, -, hkeeps⟩ := checks_keep_schedule World.punctual
    ⟨.ofMillis 10, .ofMillis 35⟩ slowCheck (World.start [])
  have hkeeps := hkeeps (.inl (by decide))
  exact ⟨rounds, hcourse, hkeeps, hkeeps.finite⟩

end Poll

end CustomResource
