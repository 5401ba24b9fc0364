import CustomResource.Demo.Walkthrough
import CustomResource.Simulation.Watching

/-!
# The demonstration in a simulated world

The demonstration and the controller beside it, each with a world of its own and one time for both.
The controller is never waited for but when it is joined, so what it does is known once it is known
when it is started and when its token fires: it is run anew whenever something depends on it.

## Main definitions

* `Rehearsal`: the two worlds, and the controller's answers.
* `Rehearsal.progress?`: the run of the controller.
* `Rehearsal.perform`: what an action of the demonstration means.
-/

namespace CustomResource

/-- The world of the demonstration, that in which its controller starts with its answers to lists
and watches, and the kind of a controller that has been started, with the instant at which its token
has fired. -/
structure Rehearsal where
  main : World
  beside : World
  answers : List PreparedAnswer
  controller : Option (Kind × Option Duration)

namespace Rehearsal

/-- The worlds at their beginning. -/
def start (script patches : Script) (answers : List PreparedAnswer) : Rehearsal :=
  ⟨.start script, .start patches, answers, none⟩

/-- The run of the controller of a kind: to its end if its token fires, and else as far as it
gets. -/
def follow (r : Rehearsal) (k : Kind) (token : Option Duration) : Watching.Progress k :=
  let progress := Watching.followUntil token .statusProcessor {} r.beside r.answers
  if token.isSome then Watching.cancel progress else progress

/-- The run of the controller, if there is one. -/
def progress? (r : Rehearsal) : Option ((k : Kind) × Watching.Progress k) :=
  r.controller.map fun (k, token) => ⟨k, r.follow k token⟩

/-- The rehearsal with its controller started. -/
def startController (r : Rehearsal) (k : Kind) : Rehearsal :=
  { r with beside := { r.beside with clock := r.main.clock }, controller := some (k, none) }

/-- The rehearsal with the token of its controller fired, if it has not been before. -/
def cancel (r : Rehearsal) : Rehearsal :=
  { r with controller := r.controller.map fun (k, token) => (k, token.or (some r.main.clock)) }

/-- Whether the controller, if there is one, has been stopped. -/
def hasStopped (r : Rehearsal) : Bool :=
  r.progress?.all fun c => c.2.ending = .stopped

/-- The rehearsal once its controller has ended. -/
def join (r : Rehearsal) : Rehearsal :=
  let ended := (r.progress?.map fun c => c.2.world.clock).getD r.main.clock
  { r with main := { r.main with clock := r.main.clock.max ended } }

/-- How many objects the controller knows by now. -/
def cachedObjects (r : Rehearsal) : Nat :=
  (r.cancel.progress?.map fun c => c.2.store.size).getD 0

/-- What an action of the demonstration means. -/
def perform : (action : Action) → Rehearsal → action.Result × Rehearsal
  | .startController k, r => ((), r.startController k)
  | .cancelController, r => ((), r.cancel)
  | .joinController, r => (r.hasStopped, r.join)
  | .countCached, r => (r.cachedObjects, r)
  | action, r =>
    let (result, main) := World.perform action r.main
    (result, { r with main })

/-- The result of the demonstration, and the worlds after it. -/
def execute {α : Type} (p : Program α) (r : Rehearsal) : α × Rehearsal :=
  p.run perform r

/-- What has happened in the demonstration, in order. -/
def trace (r : Rehearsal) : List Occurrence := r.main.trace

/-- What the controller has done, in order. -/
def controllerTrace (r : Rehearsal) : List Occurrence :=
  (r.progress?.map fun c => c.2.world.trace).getD []

end Rehearsal

end CustomResource
