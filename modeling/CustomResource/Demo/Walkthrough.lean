import CustomResource.Client.Definitions
import CustomResource.Client.Instances
import CustomResource.CommandLine.Basic
import CustomResource.Resource.Namespace
import CustomResource.Settings

/-!
# The demonstration

Registers the definition of a kind, runs the controller beside it, takes one instance through to the
processed state, and removes the definition again.

## Main definitions

* `Demo.Failure`: an error, and what was being done when it occurred.
* `Demo.ensureNamespace`: creates the namespace of the instances, unless it exists.
* `Demo.walkthrough`: what is done with the instance while the controller runs.
* `Demo.run`: the whole demonstration.
-/

namespace CustomResource.Demo

/-! ### Failures -/

/-- Why the demonstration failed: an error, with what was being done when it occurred, or a
controller that has not ended well. -/
inductive Failure where
  | error (doing : Option String) (error : Error)
  | controllerLost
  deriving Repr, Inhabited

/-- The texts of a failure, from what was being done to what is behind the error. -/
def Failure.texts : Failure → List String
  | .error doing e => doing.toList ++ e.message :: e.causes
  | .controllerLost => ["task panicked"]

/-- The lines that tell of a failure. Causes are numbered if there are several. -/
def Failure.report (f : Failure) : List String :=
  match f.texts with
  | [] => ["Error: "]
  | [text] => ["Error: " ++ text]
  | [text, cause] => ["Error: " ++ text, "", "Caused by:", "    " ++ cause]
  | text :: causes =>
    ["Error: " ++ text, "", "Caused by:"] ++
      (List.range causes.length).zipWith
        (fun n cause => "    " ++ Text.ofNat n ++ ": " ++ cause) causes

/-- A program that yields a value or a failure. -/
abbrev Stage (α : Type) : Type := ExceptT Failure Program α

namespace Stage

variable {α : Type}

/-- A task as a stage; its error is told with what was being done. -/
def ofTask (doing : Option String) (task : Task α) : Stage α :=
  ExceptT.mk do
    let outcome ← task.run
    return outcome.mapError (.error doing)

/-- Runs a stage to its end, whether it fails or not. -/
def attempt (stage : Stage α) : Stage (Except Failure α) :=
  ExceptT.mk do
    let outcome ← stage.run
    return .ok outcome

/-- Goes on with an outcome that is known. -/
def ofOutcome (outcome : Except Failure α) : Stage α :=
  ExceptT.mk (.done outcome)

end Stage

/-! ### The namespace -/

/-- Creates the namespace of the instances, unless it exists. -/
def ensureNamespace (name : String) : Stage Unit := do
  let outcome ← Stage.ofTask (some "creating namespace") <|
    (Task.request Namespace.decode
      (.create .namespaces (Namespace.named name).encode)).attempt
  match outcome with
  | .ok _ => Program.log .info ("created namespace " ++ name)
  | .error e =>
    if e.isAlreadyExists then return () else throw (.error (some "creating namespace") e)

/-! ### The walkthrough -/

variable {k : Kind}

/-- Creates the instance, unless it exists. -/
def createInstance (c : Instances k) (o : Object k) : Stage Unit := do
  let outcome ← Stage.ofTask none (c.create o).attempt
  match outcome with
  | .ok created => Program.log .info ("created " ++ created.describe)
  | .error e =>
    if e.isAlreadyExists then Program.log .info (o.name ++ " already exists")
    else throw (.error (some "creating instance") e)

/-- What is done with the instance while the controller runs, up to stopping the controller and
waiting for its end. -/
def steps (scope : String) (linger : Nat) (o : Object k) : Stage Unit := do
  let client : Instances k := ⟨scope⟩
  createInstance client o
  let processed ← Stage.ofTask none (client.waitProcessed o.name .instanceProcessed)
  Program.log .info ("processed " ++ processed.describe)
  let list ← Stage.ofTask none (client.list {})
  let cached ← Program.countCached
  Program.log .info
    (Text.ofNat list.items.length ++ " " ++ k.plural ++ " in " ++ scope ++ ", " ++
      Text.ofNat cached ++ " cached by the controller")
  for item in list.items do
    Program.log .info item.describe
  Program.log .info ("sleep for " ++ (Duration.ofSeconds linger).render ++ "...")
  Program.sleep (.ofSeconds linger)
  Program.cancelController
  let ended ← Program.joinController
  if ended then return () else throw .controllerLost

/-- What is done with the instance while the controller runs. The controller is cancelled at the
end, also when something has failed before. -/
def walkthrough (scope : String) (linger : Nat) (o : Object k) : Stage Unit := do
  Program.startController k
  let outcome ← (steps scope linger o).attempt
  Program.cancelController
  Stage.ofOutcome outcome

/-! ### The whole -/

/-- Registers the definition of a kind, walks an instance through, and removes the definition again
unless it is to be kept. -/
def run (scope : String) (options : CommandLine) (o : Object k) : Stage Unit := do
  let definition ← Stage.ofTask (some "registering CRD")
    (Definitions.register k.definition .definitionEstablished)
  let outcome ← (walkthrough scope options.linger o).attempt
  if options.keepDefinition then
    Program.log .info ("leaving CRD " ++ definition.name ++ " installed")
  else
    Program.log .info ("exit and clean " ++ definition.name)
    Stage.ofTask none (Definitions.remove definition.name)
  Stage.ofOutcome outcome

end CustomResource.Demo
