import CustomResource.Api.Deletion
import CustomResource.Definition.Readiness
import CustomResource.Program.Poll

/-!
# Registering definitions

A definition is created, or found to exist, and then waited for until it is established. When that
fails the definition is deleted again.

## Main definitions

* `Definitions.register`: creates a definition and waits for it.
* `Definitions.remove`: deletes a definition, which need not exist.
-/

namespace CustomResource.Definitions

/-- Deletes a definition. One that does not exist counts as deleted. -/
def delete (name : String) : Program (Except Api.Error Unit) := do
  let outcome ← Task.exchange (.delete .definitions name (DeleteParams.encode {}))
    (Deletion.decode Definition.decode)
  match outcome with
  | .ok () => return .ok ()
  | .error e => if e.isNotFound then return .ok () else return .error e

/-- Deletes a definition, which need not exist. -/
def remove (name : String) : Task Unit := do
  match ← Definitions.delete name with
  | .ok () => Program.log .info ("CRD " ++ name ++ " is deleted")
  | .error e => throw (.request e)

/-- Creates a definition, unless it exists. -/
def create (d : Definition) : Task Unit := do
  let posted ←
    (Task.request Definition.decode (.create .definitions d.encode)).attempt
  match posted with
  | .ok _ => Program.log .info ("CRD " ++ d.name ++ " is created")
  | .error e =>
    if e.isAlreadyExists then Program.log .info ("CRD " ++ d.name ++ " already exists")
    else
      Program.log .error ("failed to create CRD " ++ d.name ++ ": " ++ e.message)
      throw e

/-- Reads a definition, and yields it if it is established. -/
def checkEstablished (name : String) : Task (Option Definition) := do
  let outcome ←
    Task.exchange (.read .definitions name) (Answer.decode Definition.decode)
  match outcome with
  | .error e =>
    Program.log .error ("failed to wait for CRD " ++ name ++ ": " ++ e.message)
    throw (.request e)
  | .ok current =>
    match current.readiness with
    | .established => return some current
    | .namesConflict reason =>
      Program.log .warn ("name conflict while waiting for CRD " ++ name ++ ": " ++ reason)
      return none
    | .pending => return none

/-- Deletes a definition that was waited for in vain, and fails with what made it necessary. -/
def cleanUp (name : String) (cause : Error) : Task Definition := do
  Program.log .info ("cleaning up CRD " ++ name)
  match ← Definitions.delete name with
  | .ok () => throw cause
  | .error e =>
    Program.log .error ("failed to delete CRD " ++ name ++ ": " ++ e.message)
    throw (.cleanup name cause e)

/-- Creates a definition, unless it exists, and waits until it is established. When that fails, or
takes too long, the definition is deleted again. -/
def register (d : Definition) (p : Poll) : Task Definition := do
  create d
  let waited ← (p.untilSome fun _ => checkEstablished d.name).attempt
  match waited with
  | .ok (some established) => return established
  | .ok none => cleanUp d.name (.notEstablished d.name p.timeout)
  | .error e => cleanUp d.name e

end CustomResource.Definitions
