import CustomResource.Proofs.Program.Exchanges
import CustomResource.Simulation.Demonstration

/-!
# Simulated worlds keep time

A world with a script of answers is a world with a clock: its requests are answered when the delay
of the next answer is over, or given up at their deadlines. What it records of the requests is just
what programs exchange in it.

## Main definitions

* `World.requests`: the requests that a world has recorded, with their instants.

## Main results

* `World.timed`, `Rehearsal.timed`: a world keeps the laws of its clock, and so does one with a
  controller beside it.
* `World.requests_execute`: the exchanges of a program are what a world records.
-/

namespace CustomResource

/-- A timer never fires before its time. -/
theorem Duration.le_ceilMillis (d : Duration) : d ≤ d.ceilMillis := by
  change d.nanos ≤ (d.nanos + 999999) / 1000000 * 1000000
  omega

theorem Duration.le_add_right (a b : Duration) : a ≤ a + b := Nat.le_add_right _ _

namespace World

/-! ### The clock -/

theorem isOver_eq (w : World) (deadline : Option Duration) :
    w.isOver deadline = CustomResource.isOver deadline w.clock := by
  cases deadline <;> rfl

theorem clock_le_arrival (w : World) (a : PreparedAnswer) :
    w.clock ≤ (w.clock + a.delay).ceilMillis :=
  Nat.le_trans (Duration.le_add_right _ _) (Duration.le_ceilMillis _)

theorem send_of_over {w : World} {r : Request} {deadline : Option Duration}
    (h : CustomResource.isOver deadline w.clock = true) : w.send r deadline = (none, w) := by
  rw [send, isOver_eq, if_pos h]

/-- **What becomes of a request that is sent**: an answer before its deadline, or none at it. -/
theorem send_of_not_over {w : World} {r : Request} {deadline : Option Duration}
    (h : ¬ CustomResource.isOver deadline w.clock = true) :
    let arrival := (w.clock + w.script.next.1.delay).ceilMillis
    let sent := { w.record (.requested r w.clock) with script := w.script.next.2 }
    w.send r deadline =
      if isBefore arrival deadline then
        (some (w.script.next.1.answer r), { sent with clock := arrival })
      else (none, { sent with clock := deadline.getD arrival }) := by
  rw [send, isOver_eq, if_neg h]

/-- **A simulated world keeps the laws of its clock.** -/
theorem timed : Meaning.Timed World.clock World.perform where
  now _ := rfl
  log _ _ _ := rfl
  monotone action w := by
    cases action with
    | send r deadline =>
      change w.clock ≤ (w.send r deadline).2.clock
      by_cases hover : CustomResource.isOver deadline w.clock = true
      · rw [send_of_over hover]
        exact Nat.le_refl _
      · rw [send_of_not_over hover]
        cases deadline with
        | none => exact w.clock_le_arrival _
        | some deadline =>
          split
          · exact w.clock_le_arrival _
          · exact Nat.le_of_lt (not_isOver_some.mp hover)
    | sleepUntil instant => exact Nat.le_max_left _ _
    | _ => exact Nat.le_refl _
  patient _ _ := rfl
  inTime r deadline w := by
    change (w.send r (some deadline)).1.isSome ↔ (w.send r (some deadline)).2.clock < deadline
    by_cases hover : CustomResource.isOver (some deadline) w.clock = true
    · rw [send_of_over hover]
      simp only [Option.isSome_none, Bool.false_eq_true, false_iff]
      exact Nat.not_lt.mpr (isOver_some.mp hover)
    · rw [send_of_not_over hover]
      split
      · next hbefore => simpa [isBefore] using hbefore
      · simp only [Option.isSome_none, Bool.false_eq_true, false_iff]
        exact Nat.lt_irrefl deadline.nanos

end World

/-- A controller that runs beside a program is only waited for when it is joined. -/
theorem Rehearsal.timed : Meaning.Timed (fun r => r.main.clock) Rehearsal.perform where
  now _ := rfl
  log _ _ _ := rfl
  monotone action r := by
    cases action with
    | send request deadline => exact World.timed.monotone (.send request deadline) r.main
    | sleepUntil instant => exact World.timed.monotone (.sleepUntil instant) r.main
    | joinController => exact Nat.le_max_left _ _
    | _ => exact Nat.le_refl _
  patient request r := World.timed.patient request r.main
  inTime request deadline r := World.timed.inTime request deadline r.main

namespace World

/-! ### The record -/

/-- The request that has been recorded, with its instant. -/
def requested? : Occurrence → Option (Request × Duration)
  | .requested r instant => some (r, instant)
  | _ => none

/-- The requests that have been recorded, in order. -/
def requests (w : World) : List (Request × Duration) := w.trace.filterMap requested?

theorem requests_of_past {w w' : World} (h : w'.past = w.past) : w'.requests = w.requests := by
  rw [requests, requests, trace, trace, h]

theorem requests_record (w : World) (o : Occurrence) :
    (w.record o).requests = w.requests ++ (requested? o).toList := by
  rw [requests, requests, trace, trace, record, List.reverse_cons, List.filterMap_append]
  cases o <;> rfl

theorem requests_perform (action : Action) (w : World) :
    (World.perform action w).2.requests = w.requests ++
      ((Program.exchange? World.clock World.perform action w).map
        fun e => (e.request, e.sent)).toList := by
  cases action with
  | send r deadline =>
    change (w.send r deadline).2.requests = _
    rw [Program.exchange?]
    by_cases hover : CustomResource.isOver deadline w.clock = true
    · rw [send_of_over hover, if_pos hover]
      exact (List.append_nil _).symm
    · rw [send_of_not_over hover, if_neg hover]
      refine Eq.trans ?_ (w.requests_record (.requested r w.clock))
      split <;> exact requests_of_past rfl
  | log level message => exact w.requests_record _
  | _ => exact (List.append_nil _).symm

/-- **The record of a world is what programs exchange in it.** -/
theorem requests_execute {α : Type} (p : Program α) (w : World) :
    (w.execute p).2.requests = w.requests ++
      (p.exchanges World.clock World.perform w).map fun e => (e.request, e.sent) := by
  induction p generalizing w with
  | done value => exact (List.append_nil _).symm
  | perform action next ih =>
    rw [Program.exchanges, List.map_append, ← Option.toList_map, ← List.append_assoc,
      ← requests_perform]
    exact ih _ _

end World

end CustomResource
