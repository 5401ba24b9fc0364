/-!
# Settings

Where instances live and where the configuration of the cluster is found, as the variables of the
environment say.

## Main definitions

* `Settings`: the namespace of the instances and the path of the configuration file.
* `Settings.ofLookup`: the settings that some variables give.
-/

namespace CustomResource

/-- Where instances live and where the cluster is found. -/
structure Settings where
  scope : String
  kubeconfig : String
  deriving DecidableEq, Repr, Inhabited

namespace Settings

/-- The namespace of instances unless another one is given. -/
def defaultScope : String := "crd"

/-- A path below another one. -/
def join (base rest : String) : String :=
  if base = "" ∨ base.toList.getLast? = some '/' then base ++ rest else base ++ "/" ++ rest

/-- The path of the configuration file below a home directory. -/
def kubeconfigBelow (home : String) : String :=
  join (join home ".kube") "config"

/-- A value that is not empty. An empty one counts as missing. -/
def given (value : Option String) : Option String :=
  value.filter (· ≠ "")

/-- The settings that some variables give, below a home directory. -/
def ofLookup (lookup : String → Option String) (home : String) : Settings where
  scope := (given (lookup "CRD_NAMESPACE")).getD defaultScope
  kubeconfig := (given (lookup "KUBECONFIG")).getD (kubeconfigBelow home)

end Settings

end CustomResource
