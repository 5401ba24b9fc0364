import CustomResource.Program.Task

/-!
# Polling

A condition is checked again and again until it yields a value, or until the time for it is over.
The checks are due at fixed intervals; a check that is late puts off those after it.

## Main definitions

* `Poll`: an interval and a timeout.
* `Poll.nextDue`: when the next check is due.
* `Poll.untilSome`: the program that polls.
-/

namespace CustomResource

/-- How often and how long a condition is checked. -/
structure Poll where
  interval : Duration
  timeout : Duration
  deriving DecidableEq, Repr, Inhabited

namespace Poll

/-- For a definition to be established: every five seconds, for a minute. -/
def definitionEstablished : Poll := ⟨.ofSeconds 5, .ofSeconds 60⟩

/-- For an instance to be processed: every tenth of a second, for twenty seconds. -/
def instanceProcessed : Poll := ⟨.ofMillis 100, .ofSeconds 20⟩

/-- The time between two checks: a millisecond at least, and no more than a timer can be set to. -/
def period (p : Poll) : Duration := (p.interval.max (.ofMillis 1)).attainable

/-- By how much a check may be late without putting off those after it. -/
def tolerance : Duration := .ofMillis 5

/-- When the next check is due, after one that was due at an instant and has begun at another. -/
def nextDue (p : Poll) (due start : Duration) : Duration :=
  if due + tolerance < start then start + p.period else due + p.period

/-- The checks from the `n`-th on, which is due at an instant, `fuel` of them at most. -/
def checks {α : Type} (p : Poll) (check : Nat → Task (Option α)) :
    Nat → Nat → Duration → Task (Option α)
  | 0, _, due => do
    Program.sleepUntil due.ceilMillis
    return none
  | fuel + 1, n, due => do
    let now ← Program.now
    let start := now.max due.ceilMillis
    Program.sleepUntil start
    match ← check n with
    | some value => return some value
    | none => p.checks check fuel (n + 1) (p.nextDue due start)

/-- More checks than can be due before the timeout. -/
def mostChecks (p : Poll) : Nat :=
  p.timeout.ceilMillis.nanos / p.period.nanos + 2

/-- Checks a condition until it yields a value or fails; yields nothing when the time is over first.
The first check begins at once. -/
def untilSome {α : Type} (p : Poll) (check : Nat → Task (Option α)) : Task (Option α) :=
  ExceptT.mk do
    let start ← Program.now
    let deadline := (start + p.timeout).ceilMillis
    let outcome ← (p.checks check p.mostChecks 0 start).run.within deadline
    return outcome.getD (.ok none)

end Poll

end CustomResource
