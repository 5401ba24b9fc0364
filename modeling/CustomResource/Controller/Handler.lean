import CustomResource.Client.Instances
import CustomResource.Watch.Informer

/-!
# Handlers

A handler says what is done about each notification. It reports its own errors: nothing that it does
can stop the controller.

## Main definitions

* `Handler`: one program for each sort of notification.
* `Handler.handle`: what is done about a notification.
* `Handler.statusProcessor`: the handler that moves new objects to the processed state.
-/

namespace CustomResource

/-- What is done about each sort of notification. -/
structure Handler (k : Kind) where
  onAdd : Object k → Program Unit
  onUpdate : Object k → Object k → Program Unit
  onDelete : Object k → Program Unit

namespace Handler

variable {k : Kind}

/-- What is done about a notification. -/
def handle (h : Handler k) : Notification k → Program Unit
  | .added o => h.onAdd o
  | .updated old new => h.onUpdate old new
  | .deleted o => h.onDelete o

/-- The handler that does nothing. -/
def silent : Handler k where
  onAdd _ := .done ()
  onUpdate _ _ := .done ()
  onDelete _ := .done ()

/-- Moves an object to the processed state, unless it needs no processing. -/
def process (o : Object k) : Program Unit := do
  Program.log .info ("on add " ++ o.key)
  if o.needsProcessing then
    let client : Instances k := ⟨o.metadata.namespaceName.getD ""⟩
    let outcome ← (client.patchStatus o.name .processed).run
    match outcome with
    | .ok _ => Program.log .info ("updated status of " ++ o.key)
    | .error e =>
      Program.log .error ("error updating status of " ++ o.key ++ ": " ++ e.message)
  else
    Program.log .debug (o.key ++ " is already " ++ o.state.name)

/-- The handler that moves new objects to the processed state, and only tells of the others. -/
def statusProcessor : Handler k where
  onAdd := process
  onUpdate old new :=
    Program.log .info
      ("on update " ++ new.key ++ " (resource version " ++ old.version ++ " -> " ++
        new.version ++ ")")
  onDelete o := Program.log .info ("on delete " ++ o.key)

end Handler

end CustomResource
