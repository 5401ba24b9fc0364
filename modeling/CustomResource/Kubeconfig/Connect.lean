import CustomResource.Kubeconfig.InCluster
import CustomResource.Kubeconfig.Load
import CustomResource.Program.Task

/-!
# Connecting to a cluster

The cluster of the settings' configuration file, or of what can be inferred when there is none.

## Main definitions

* `Connection`: what is known about a cluster that has been connected to.
* `Kubeconfig.Target.connect`: the connection to a target.
* `Settings.connect`: the connection that some settings lead to.
-/

namespace CustomResource

/-- What is known about a cluster: its server, and the namespace that is meant unless another one is
named. -/
structure Connection where
  server : String
  defaultScope : String
  deriving DecidableEq, Repr, Inhabited

/-- The connection to a target at an instant in seconds. Its user has to have usable credentials. -/
def Kubeconfig.Target.connect (files : Files) (present : Int) (t : Target) :
    Except Api.Error Connection := do
  (Credentials.checkToken files present t.user).mapError .noToken
  (Credentials.checkEncryption files t).mapError .badEncryption
  if Credentials.canAct t.user then
    return { server := t.server, defaultScope := t.defaultScope }
  else throw .badHeader

namespace Settings

/-- What can be inferred without a configuration file of the settings: the usual configuration
files, or else the cluster around the process. -/
def inferTarget (files : Files) (lookup : String → Option String) (home : String) :
    Except Error Kubeconfig.Target :=
  match (Kubeconfig.inferred files (lookup "KUBECONFIG") home).bind
    (Kubeconfig.resolve files lookup) with
  | .ok t => .ok t
  | .error outside =>
    (InCluster.target files lookup).mapError fun inside => .noConfig inside outside

/-- The connection that some settings lead to, with what is at each path, the variables of the
environment, the home directory, and the present instant in seconds since the start of 1970. A path
that leads somewhere is taken at its word. -/
def connect (s : Settings) (files : Files) (lookup : String → Option String) (home : String)
    (present : Int) : Task Connection := do
  let target ←
    if (files s.kubeconfig).isPresent then do
      Program.log .debug ("loading kubeconfig from " ++ s.kubeconfig)
      Task.ofExcept <|
        ((Kubeconfig.ofFile files s.kubeconfig).bind
          (Kubeconfig.resolve files lookup)).mapError .kubeconfig
    else do
      Program.log .info ("kubeconfig " ++ s.kubeconfig ++ " not found, inferring cluster config")
      Task.ofExcept (inferTarget files lookup home)
  Task.ofExcept ((target.connect files present).mapError .request)

end Settings

end CustomResource
