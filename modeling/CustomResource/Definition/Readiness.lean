import CustomResource.Definition.Basic

/-!
# Readiness

How far a definition is from being usable, as its conditions tell.

## Main definitions

* `Definition.Readiness`: the verdicts.
* `Definition.readiness`: the verdict on a definition.
-/

namespace CustomResource

namespace Definition

/-- How far a definition is from being usable. -/
inductive Readiness where
  | established
  | namesConflict (reason : String)
  | pending
  deriving DecidableEq, Repr, Inhabited

/-- Goes through the conditions with what those before them say. An established definition is ready,
whatever else is reported; of several conflicts the last one counts. -/
def Readiness.ofConditions : Readiness → List Condition → Readiness
  | sofar, [] => sofar
  | sofar, c :: cs =>
    if c.type = "Established" ∧ c.status = "True" then .established
    else if c.type = "NamesAccepted" ∧ c.status = "False" then
      ofConditions (.namesConflict (c.reason.getD "")) cs
    else ofConditions sofar cs

/-- What the conditions of a definition say. Without any it is pending. -/
def readiness (d : Definition) : Readiness :=
  Readiness.ofConditions .pending ((d.status.bind (·.conditions)).getD [])

end Definition

end CustomResource
