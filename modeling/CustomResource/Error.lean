import CustomResource.Api.Error
import CustomResource.Clock.Duration
import CustomResource.Kubeconfig.InCluster

/-!
# Errors

What can go wrong in registering definitions, in working with instances, and in connecting to a
cluster.

## Main definitions

* `Error`: the errors, with `message` and the `causes` behind it.
* `Error.isAlreadyExists`, `Error.isNotFound`: the two refusals that callers tell apart.
-/

namespace CustomResource

/-- What went wrong. -/
inductive Error where
  | request (error : Api.Error)
  | kubeconfig (error : Kubeconfig.Error)
  | noConfig (inside : InCluster.Error) (outside : Kubeconfig.Error)
  | serialization (error : DecodeError)
  | notEstablished (name : String) (timeout : Duration)
  | cleanup (name : String) (cause : Error) (error : Api.Error)
  | notProcessed (name : String) (timeout : Duration)
  | missingName
  deriving Repr, Inhabited

namespace Error

/-- Why nothing could be inferred: there is no cluster around this process, and no usable
configuration file. -/
def inferText (inside : InCluster.Error) (outside : Kubeconfig.Error) : String :=
  "failed to infer config: in-cluster: (" ++ inside.message ++ "), kubeconfig: (" ++
    outside.message ++ ")"

/-- The wording of an error. -/
def message : Error → String
  | .request e => "Kube Error: " ++ e.message
  | .kubeconfig e => "Kubeconfig Error: " ++ e.message
  | .noConfig inside outside => "Infer Config Error: " ++ inferText inside outside
  | .serialization e => "SerializationError: " ++ e.message
  | .notEstablished name timeout =>
    "CRD " ++ name ++ " not established after " ++ timeout.render
  | .cleanup name cause e =>
    "CRD " ++ name ++ " failed (" ++ cause.message ++ ") and cleanup failed too: " ++ e.message
  | .notProcessed name timeout =>
    "instance " ++ name ++ " not processed after " ++ timeout.render
  | .missingName => "object has no name"

/-- The texts of what is behind an error, from the nearest cause on. Behind a failed cleanup is what
made it necessary. -/
def causes : Error → List String
  | .request e => e.message :: e.causes
  | .kubeconfig e => e.message :: e.causes
  | .noConfig inside outside => inferText inside outside :: outside.message :: outside.causes
  | .serialization e => [e.message]
  | .notEstablished _ _ => []
  | .cleanup _ cause _ => cause.message :: cause.causes
  | .notProcessed _ _ => []
  | .missingName => []

/-- The code with which the apiserver refused a request. -/
def code? : Error → Option Nat
  | .request e => e.code?
  | _ => none

/-- Whether the apiserver refused a creation because the object exists. -/
def isAlreadyExists (e : Error) : Bool := e.code? = some 409

/-- Whether the apiserver has no such object. -/
def isNotFound (e : Error) : Bool := e.code? = some 404

end Error

end CustomResource
