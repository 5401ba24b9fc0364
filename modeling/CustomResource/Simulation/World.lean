import CustomResource.Program.Basic
import CustomResource.Simulation.Script
import CustomResource.Watch.Informer

/-!
# Simulated worlds

A world in which programs run without a cluster: a clock that jumps to the next instant at which
something happens, a script of answers, and a record of all that has happened.

## Main definitions

* `Occurrence`: something that has happened.
* `World`: the clock, the script and the record.
* `World.perform`: what an action means in a world.
* `World.execute`: the result of a program in a world.
-/

namespace CustomResource

/-- Something that has happened: a request has been sent at an instant, a message has been written,
or a handler has been called. -/
inductive Occurrence where
  | requested (request : Request) (instant : Duration)
  | logged (level : LogLevel) (message : String)
  | notified {k : Kind} (notification : Notification k)

/-- The clock, the script of answers, and what has happened, the latest first. -/
structure World where
  clock : Duration
  script : Script
  past : List Occurrence

namespace World

/-- The world at its beginning. -/
def start (script : Script) : World := ⟨.ofMillis 0, script, []⟩

/-- What has happened, in order. -/
def trace (w : World) : List Occurrence := w.past.reverse

/-- The world in which nothing has happened yet, at the same instant. -/
def forgetful (w : World) : World := { w with past := [] }

/-- The world after something has happened. -/
def record (w : World) (o : Occurrence) : World := { w with past := o :: w.past }

/-- Whether a deadline is over. -/
def isOver (w : World) : Option Duration → Bool
  | some deadline => deadline ≤ w.clock
  | none => false

/-- Whether an instant is before a deadline. -/
def isBefore (instant : Duration) : Option Duration → Bool
  | some deadline => instant < deadline
  | none => true

/-- Sends a request. At or after its deadline it is not sent, and an answer that arrives at or after
the deadline does not count. -/
def send (w : World) (r : Request) (deadline : Option Duration) : Option Answer × World :=
  if w.isOver deadline then (none, w)
  else
    let (prepared, script) := w.script.next
    let arrival := (w.clock + prepared.delay).ceilMillis
    let sent := { w.record (.requested r w.clock) with script }
    if isBefore arrival deadline then
      (some (prepared.answer r), { sent with clock := arrival })
    else (none, { sent with clock := deadline.getD arrival })

/-- What an action means in a world without a controller. -/
def perform : (action : Action) → World → action.Result × World
  | .log level message, w => ((), w.record (.logged level message))
  | .now, w => (w.clock, w)
  | .sleepUntil instant, w => ((), { w with clock := w.clock.max instant })
  | .connect _, w => ((), w)
  | .send r deadline, w => w.send r deadline
  | .startController _, w => ((), w)
  | .cancelController, w => ((), w)
  | .joinController, w => (true, w)
  | .countCached, w => ((0 : Nat), w)

/-- The result of a program in a world, and the world after it. -/
def execute {α : Type} (p : Program α) (w : World) : α × World :=
  p.run perform w

end World

end CustomResource
