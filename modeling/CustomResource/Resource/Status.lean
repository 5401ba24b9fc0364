import CustomResource.Decode.Record
import CustomResource.Decode.Variant

/-!
# Lifecycle status

What every resource reports about itself: a state and a message. A state that someone else has
written under another name is kept as unknown.

## Main definitions

* `State`: the states, with `State.ofName` and `State.name`.
* `State.decode`, `State.encode`: a state as JSON.
* `Status`: the status, with `created`, `pending` and `processed`.
* `Status.decode`, `Status.encode`: the status as JSON.
* `State.decodeAside`, `Status.decodeAside`: the same for JSON that has been set aside.
-/

namespace CustomResource

/-- How far the handling of a resource has come. -/
inductive State where
  | created
  | pending
  | processed
  | unknown
  deriving DecidableEq, Repr, Inhabited

namespace State

/-- The name of a state. -/
def name : State → String
  | .created => "Created"
  | .pending => "Pending"
  | .processed => "Processed"
  | .unknown => "Unknown"

/-- The state of a name. Any other name is of an unknown state. -/
def ofName (name : String) : State :=
  if name = "Created" then .created
  else if name = "Pending" then .pending
  else if name = "Processed" then .processed
  else .unknown

/-- Reads a state from its name. -/
def decode : Decoder State := Decoder.variant fun name => .ok (ofName name)

/-- Reads a state that has been set aside from its name. -/
def decodeAside : Decoder State := Decoder.variantAside fun name => .ok (ofName name)

/-- A state as JSON: its name. -/
def encode (s : State) : Json := .string s.name

end State

/-- The status of a resource. -/
structure Status where
  state : State
  message : String
  deriving DecidableEq, Repr, Inhabited

namespace Status

/-- The status of a resource that the controller has not seen. -/
def created : Status := ⟨.created, "Created but not processed yet"⟩

/-- The status of a resource that waits for the controller. -/
def pending : Status := ⟨.pending, "Pending to be processed"⟩

/-- The status of a resource that the controller has handled. -/
def processed : Status := ⟨.processed, "Successfully processed by controller"⟩

/-- The status that stands for a missing one. -/
def initial : Status := ⟨.created, ""⟩

/-- The fields of a status. -/
inductive Field where
  | state
  | message
  deriving DecidableEq, Repr

/-- The description of a status as a record, from how its state is read. Both fields may be left
out. -/
def record (state : Decoder State) : Record Field Status where
  title := "struct LifecycleStatus"
  fields := [.state, .message]
  name
    | .state => "state"
    | .message => "message"
  Value
    | .state => State
    | .message => String
  read
    | .state => state
    | .message => Decoder.string
  mayEnd _ := true
  build slots := .ok
    { state := (slots .state).getD Status.initial.state
      message := (slots .message).getD Status.initial.message }

/-- Reads a status. -/
def decode : Decoder Status := (record State.decode).strict

/-- Reads a status that has been set aside. -/
def decodeAside : Decoder Status := (record State.decodeAside).strict

/-- A status as JSON. -/
def encode (s : Status) : Json :=
  .object [("state", s.state.encode), ("message", .string s.message)]

end Status

end CustomResource
