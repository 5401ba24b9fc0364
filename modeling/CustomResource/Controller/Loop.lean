import CustomResource.Controller.Handler
import CustomResource.Watch.Watcher

/-!
# The controller

The controller takes what the watcher yields, one item after the other, until it is cancelled or
there is nothing more to come. An observation changes the store at once, and its notifications are
then handled one by one; an error is only told of. Cancellation is looked at between two items,
never during one.

## Main definitions

* `Controller.Step`: something to do about an item: a warning, or a call of the handler.
* `Controller.steps?`: the steps of an item, and the store after it.
* `Controller.Selected`, `Controller.run`: the whole run on given choices.
-/

namespace CustomResource.Controller

variable {k : Kind}

/-- Something to do about an item. A call of the handler carries the store as it is to be seen
during the call. -/
inductive Step (k : Kind) where
  | warning (error : WatchError)
  | call (notification : Notification k) (visible : Store k)
  deriving Inhabited

/-- The steps of an item, and the store after it. None if an object has no name. -/
def steps? (s : Store k) : Watcher.Item k → Option (List (Step k) × Store k)
  | .error e => some ([.warning e], s)
  | .ok observation =>
    (Informer.step? s observation).map fun (notifications, after) =>
      (notifications.map (Step.call · after), after)

/-- Does what a step says. -/
def Step.perform (h : Handler k) : Step k → Program Unit
  | .warning e => Program.log .warn ("watch error: " ++ e.message)
  | .call n _ => h.handle n

/-- Does what some steps say, in order. -/
def performAll (h : Handler k) : List (Step k) → Program Unit
  | [] => .done ()
  | step :: steps => do
    step.perform h
    performAll h steps

/-- What the controller goes on with: the cancellation, the end of what it watches, or the next
item. -/
inductive Selected (k : Kind) where
  | cancelled
  | ended
  | item (item : Watcher.Item k)
  deriving Inhabited

/-- How a run ends. One that is not over waits for more to be selected; one that has met an object
without a name is broken off. -/
inductive Ending where
  | stopped
  | waiting
  | brokenOff
  deriving DecidableEq, Repr, Inhabited

/-- What is said when the controller starts. -/
def startMessage (k : Kind) : String := "watching " ++ k.name ++ " objects"

/-- What is said when the controller stops. -/
def stopMessage (k : Kind) : String := "stopped watching " ++ k.name ++ " objects"

/-- The loop of the controller, from a store on. -/
def loop (h : Handler k) : Store k → List (Selected k) → Program (Ending × Store k)
  | s, [] => .done (.waiting, s)
  | s, .cancelled :: _ => do
    Program.log .info (stopMessage k)
    return (.stopped, s)
  | s, .ended :: _ => do
    Program.log .info (stopMessage k)
    return (.stopped, s)
  | s, .item i :: rest =>
    match steps? s i with
    | none => .done (.brokenOff, s)
    | some (steps, after) => do
      performAll h steps
      loop h after rest

/-- The run of the controller on given choices. -/
def run (h : Handler k) (choices : List (Selected k)) : Program (Ending × Store k) := do
  Program.log .info (startMessage k)
  loop h .empty choices

end CustomResource.Controller
