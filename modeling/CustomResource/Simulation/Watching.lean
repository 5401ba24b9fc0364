import CustomResource.Controller.Loop
import CustomResource.Simulation.World

/-!
# A controller in a simulated world

The controller's lists and watches are answered one after the other; what its handler does is
answered by the script of the world. When no answer is left the next list or watch stays open.

The token of a controller may fire at an instant. It is looked at when an item is selected and while
an answer is waited for, never while the handler is at work. What is due at the very instant at
which it fires is still done.

## Main definitions

* `Watching.followUntil`: the run of a controller on some answers, until its token fires.
* `Watching.follow`: the same with a token that does not fire.
* `Watching.cancel`: the end of a run that waits.
-/

namespace CustomResource.Watching

variable {k : Kind}

/-- A run of a controller: whether it goes on, its store, and its world. -/
structure Progress (k : Kind) where
  ending : Controller.Ending
  store : Store k
  world : World

/-- Does what a step says. The call of a handler is recorded. -/
def performStep (h : Handler k) (w : World) (step : Controller.Step k) : World :=
  let w := match step with
    | .warning _ => w
    | .call n _ => w.record (.notified n)
  (w.execute (step.perform h)).2

/-- The end of a run that has been stopped. -/
def stopped (s : Store k) (w : World) : Progress k :=
  ⟨.stopped, s, w.record (.logged .info (Controller.stopMessage k))⟩

/-- Whether a token has fired before an instant. -/
def hasFired (token : Option Duration) (instant : Duration) : Bool :=
  token.any (· < instant)

/-- Handles items one after the other, up to one with an object that has no name, or until the token
has fired. -/
def handleItems (h : Handler k) (token : Option Duration) :
    Store k → World → List (Watcher.Item k) → Progress k
  | s, w, [] => ⟨.waiting, s, w⟩
  | s, w, item :: rest =>
    if hasFired token w.clock then stopped s w
    else
      match Controller.steps? s item with
      | none => ⟨.brokenOff, s, w⟩
      | some (steps, after) => handleItems h token after (steps.foldl (performStep h) w) rest

/-- The world after a list or watch has been sent in it. -/
def asked (w : World) (c : WatchConfig) (watcher : Watcher k) : World :=
  w.record (.requested (watcher.request c) w.clock)

/-- Sends the requests of a watcher, as long as there are answers and the token has not fired, and
handles what they yield. -/
def followFrom (h : Handler k) (c : WatchConfig) (token : Option Duration) :
    Watcher k → Store k → World → List PreparedAnswer → Progress k
  | watcher, s, w, [] =>
    if hasFired token w.clock then stopped s w else ⟨.waiting, s, asked w c watcher⟩
  | watcher, s, w, a :: rest =>
    let arrival := (w.clock + a.delay).ceilMillis
    if hasFired token w.clock then stopped s w
    else if hasFired token arrival then stopped s (asked w c watcher)
    else
      let (items, next) := watcher.receive (a.answer (watcher.request c))
      let progress := handleItems h token s { asked w c watcher with clock := arrival } items
      match progress.ending with
      | .waiting => followFrom h c token next progress.store progress.world rest
      | _ => progress

/-- The run of a controller from its start, until its token fires. -/
def followUntil (token : Option Duration) (h : Handler k) (c : WatchConfig) (w : World)
    (answers : List PreparedAnswer) : Progress k :=
  followFrom h c token .start .empty (w.record (.logged .info (Controller.startMessage k))) answers

/-- The run of a controller from its start. -/
def follow (h : Handler k) (c : WatchConfig) (w : World) (answers : List PreparedAnswer) :
    Progress k :=
  followUntil none h c w answers

/-- Ends a run that waits. -/
def cancel (p : Progress k) : Progress k :=
  match p.ending with
  | .waiting => stopped p.store p.world
  | _ => p

/-- The run of a controller that has been cancelled before its start. -/
def cancelled (k : Kind) (w : World) : Progress k :=
  cancel ⟨.waiting, .empty, w.record (.logged .info (Controller.startMessage k))⟩

end CustomResource.Watching
