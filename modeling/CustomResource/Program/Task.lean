import CustomResource.Error
import CustomResource.Program.Basic

/-!
# Tasks

A task is a program that may fail. Requests to the apiserver are tasks: a request that cannot be
sent, or whose answer is no value of the expected type, fails.

## Main definitions

* `Task`: the programs that yield a value or an error.
* `Task.attempt`: a task that does not fail, but yields the error of another one.
* `Task.call`: sends a request and reads its answer.
-/

namespace CustomResource

/-- A program that yields a value or an error. -/
abbrev Task (α : Type) : Type := ExceptT Error Program α

namespace Task

variable {α : Type}

/-- A value or an error that is known. -/
def ofExcept (outcome : Except Error α) : Task α :=
  ExceptT.mk (.done outcome)

/-- The value or the error of a task, as its value. -/
def attempt (task : Task α) : Task (Except Error α) :=
  ExceptT.mk do
    let outcome ← task.run
    return .ok outcome

/-- Sends a request and reads its answer. -/
def exchange (request : Request) (read : Answer → Except Api.Error α) :
    Program (Except Api.Error α) :=
  match request.check with
  | .error e => .done (.error e)
  | .ok () =>
    .perform (.send request none) fun
      | some answer => .done (read answer)
      | none => .done (.error (.noConnection "request given up" []))

/-- Sends a request and reads its answer. -/
def call (request : Request) (read : Answer → Except Api.Error α) : Task α :=
  ExceptT.mk do
    let outcome ← exchange request read
    return outcome.mapError .request

/-- Sends a request that is answered by a value. -/
def request (decoder : Decoder α) (request : Request) : Task α :=
  call request (Answer.decode decoder)

end Task

end CustomResource
