import CustomResource.Demo.Walkthrough
import CustomResource.Kubeconfig.Connect

/-!
# A session

What the program does from its start to its end: it reads its arguments, connects to the cluster of
its settings, makes sure that the namespace exists, and gives the demonstration.

## Main definitions

* `Surroundings`: what the program finds around it.
* `Session.Result`: how a session ends, with the status of the process.
* `Session.connected`, `Session.run`: the session from its connection on, and the whole.
-/

namespace CustomResource

/-- What the program finds around it: its arguments, the variables of the environment, the home
directory, what is at each path, and the present instant in seconds since the start of 1970. -/
structure Surroundings where
  arguments : List String
  lookup : String → Option String
  home : String
  files : Files
  present : Int

namespace Session

/-- How a session ends: well, by a failure, or because its arguments are not accepted. -/
inductive Result where
  | finished
  | failed (failure : Demo.Failure)
  | refused (error : UsageError)
  deriving Repr, Inhabited

/-- The status of the process. -/
def Result.exitCode : Result → Nat
  | .finished => 0
  | .failed _ => 1
  | .refused e => e.exitCode

/-- The settings of a session: options take the place of variables. -/
def settings (s : Surroundings) (options : CommandLine) : Settings :=
  let given := Settings.ofLookup s.lookup s.home
  { scope := options.scope.getD given.scope
    kubeconfig := options.kubeconfig.getD given.kubeconfig }

/-- The instance that is created. -/
def instanceOf (options : CommandLine) : Object options.kind :=
  .named options.name (Spec.sample options.kind)

/-- What is done once the cluster is known. -/
def connected (scope : String) (options : CommandLine) : Demo.Stage Unit := do
  Demo.ensureNamespace scope
  Demo.run scope options (instanceOf options)

/-- What is done with the options of the command line. -/
def withOptions (s : Surroundings) (options : CommandLine) : Demo.Stage Unit := do
  let settings := Session.settings s options
  let connection ← Demo.Stage.ofTask (some "connecting to cluster")
    (settings.connect s.files s.lookup s.home s.present)
  Program.connect connection.server
  connected settings.scope options

/-- A whole session. -/
def run (s : Surroundings) : Program Result :=
  match CommandLine.parse s.arguments with
  | .error e => .done (.refused e)
  | .ok options => do
    match ← (withOptions s options).run with
    | .ok () => return .finished
    | .error failure => return .failed failure

end Session

end CustomResource
