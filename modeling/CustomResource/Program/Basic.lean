import CustomResource.Api.Answer
import CustomResource.Api.Request
import CustomResource.Clock.Duration

/-!
# Programs

What the library does is described as a tree: an action on the outside world, and for each of its
results what happens next. Who runs a program decides what its actions mean, so one description
serves for a real apiserver, for a scripted one, and for all possible ones.

## Main definitions

* `Action`: the actions, each with the type of its result.
* `Program`: the programs, a monad.
* `Program.within`: a program that is cut off at a deadline.
* `Program.run`: the result of a program under given meanings of the actions.
-/

namespace CustomResource

/-! ### Actions -/

/-- How important a message is. -/
inductive LogLevel where
  | error
  | warn
  | info
  | debug
  deriving DecidableEq, Repr, Inhabited

/-- The name of a level. -/
def LogLevel.name : LogLevel → String
  | .error => "error"
  | .warn => "warn"
  | .info => "info"
  | .debug => "debug"

/-- An action on the outside world. Instants are durations since the start. Requests go to the
server that was connected to last. A request that is sent with a deadline is given up at that
instant; at or after its deadline it is not sent at all. The last four actions concern the
controller of a kind, which runs beside the program. -/
inductive Action where
  | log (level : LogLevel) (message : String)
  | now
  | sleepUntil (instant : Duration)
  | connect (server : String)
  | send (request : Request) (deadline : Option Duration)
  | startController (kind : Kind)
  | cancelController
  | joinController
  | countCached
  deriving Inhabited

/-- The type of the result of an action. A request without an answer has been given up; joining the
controller tells whether it ended well. -/
def Action.Result : Action → Type
  | .log _ _ => Unit
  | .now => Duration
  | .sleepUntil _ => Unit
  | .connect _ => Unit
  | .send _ _ => Option Answer
  | .startController _ => Unit
  | .cancelController => Unit
  | .joinController => Bool
  | .countCached => Nat

/-! ### Programs -/

/-- A program that yields a value. -/
inductive Program (α : Type) where
  | done (value : α)
  | perform (action : Action) (next : action.Result → Program α)

namespace Program

variable {α β : Type}

/-- Goes on with the value of a program. -/
def bind : Program α → (α → Program β) → Program β
  | .done value, next => next value
  | .perform action rest, next => .perform action fun result => (rest result).bind next

instance : Monad Program where
  pure := .done
  bind := .bind

/-- The program that performs one action. -/
def ofAction (action : Action) : Program action.Result :=
  .perform action .done

/-- Writes a message. -/
def log (level : LogLevel) (message : String) : Program Unit :=
  ofAction (.log level message)

/-- The present instant. -/
def now : Program Duration :=
  ofAction .now

/-- Waits for an instant. -/
def sleepUntil (instant : Duration) : Program Unit :=
  ofAction (.sleepUntil instant)

/-- Connects to a server. -/
def connect (server : String) : Program Unit :=
  ofAction (.connect server)

/-- Starts the controller of a kind. -/
def startController (kind : Kind) : Program Unit :=
  ofAction (.startController kind)

/-- Cancels the controller. -/
def cancelController : Program Unit :=
  ofAction .cancelController

/-- Waits for the end of the controller, and tells whether it has ended well. -/
def joinController : Program Bool :=
  ofAction .joinController

/-- The number of objects that the controller knows. -/
def countCached : Program Nat :=
  ofAction .countCached

/-- Waits for some time, or as long as a timer can be set to. -/
def sleep (d : Duration) : Program Unit := do
  let start ← now
  sleepUntil (start + d.attainable).ceilMillis

/-- The earlier of two deadlines, the second of which is given. -/
def earlier (a : Option Duration) (b : Duration) : Duration :=
  match a with
  | some a => if a ≤ b then a else b
  | none => b

/-- Cuts a program off at a deadline: nothing is waited for any longer, and a request that has no
answer before the deadline is given up. What ends at the very instant of the deadline still
counts. -/
def within (deadline : Duration) : Program α → Program (Option α)
  | .done value => .done (some value)
  | .perform (.sleepUntil instant) next =>
    if instant ≤ deadline then
      .perform (.sleepUntil instant) fun result => (next result).within deadline
    else .perform (.sleepUntil deadline) fun _ => .done none
  | .perform (.send request limit) next =>
    .perform (.send request (some (earlier limit deadline))) fun
      | some answer => (next (some answer)).within deadline
      | none => .done none
  | .perform action next => .perform action fun result => (next result).within deadline

/-- The result of a program, and the state in which it leaves a world where each action has a given
meaning. -/
def run {σ : Type} (meaning : (action : Action) → σ → action.Result × σ) : Program α → σ → α × σ
  | .done value, state => (value, state)
  | .perform action next, state =>
    let (result, state) := meaning action state
    (next result).run meaning state

end Program

end CustomResource
