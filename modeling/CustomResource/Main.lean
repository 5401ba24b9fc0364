import CustomResource.CommandLine.LogFilter
import CustomResource.Controller.Loop
import CustomResource.Demo.Session
import Std.Time.DateTime.Timestamp

/-!
# The program

The session of a process. Messages and the report of a failure go to the standard error stream. The
library speaks no HTTP of its own: each request is written to the standard output as one line of
JSON, and one line of JSON with `status` and `body` is read from the standard input as its answer,
so that another process can carry them to the server. When the input has ended no request is
answered.

The controller takes a turn, one list or watch, whenever the program sleeps.

## Main definitions

* `Host`: what a session works with in a process.
* `Host.execute`: what a program does in a process.
* `main`: the program.
-/

namespace CustomResource

/-- A controller between two of its turns. -/
structure Host.Controlled where
  kind : Kind
  watcher : Watcher kind
  store : Store kind
  isRunning : Bool

/-- What a session works with in a process: its filter of messages, the instant of its start, and
its controller. -/
structure Host where
  filter : LogFilter
  start : Nat
  controller : IO.Ref (Option Host.Controlled)

namespace Host

/-! ### Actions -/

/-- The part of the program that messages come from. -/
def part : String := "CustomResource"

/-- Writes a message. -/
def log (h : Host) (level : LogLevel) (message : String) : IO Unit :=
  if h.filter.admits part level message then IO.eprintln (level.name ++ ": " ++ message)
  else return ()

/-- The present instant. -/
def now (h : Host) : IO Duration := do
  return ⟨(← IO.monoNanosNow) - h.start⟩

/-- Waits for an instant, or as long as a process can sleep at once. -/
def sleepUntil (h : Host) (instant : Duration) : IO Unit := do
  let now ← h.now
  IO.sleep (UInt32.ofNat (min ((instant.nanos - now.nanos + 999999) / 1000000) 4294967295))

/-- Writes a line. -/
def say (line : Json) : IO Unit := do
  let out ← IO.getStdout
  out.putStrLn line.render
  out.flush

/-- A request as a line. -/
def requestLine (r : Request) : Json :=
  .object <|
    [("method", .string r.method.name), ("url", .string r.url)] ++
    match r.body with
    | some (type, body) => [("type", .string type.name), ("body", body)]
    | none => []

/-- The answer in a line. -/
def answerOf (line : String) : Answer :=
  match Decoder.ofText Decoder.json line with
  | .error _ => .noConnection "client error (Connect)" []
  | .ok value =>
    match value.field "status", value.field "body" with
    | .number (.int code), .string body => .response code.toNat body.toUTF8
    | _, _ => .noConnection "client error (Connect)" []

/-- Whether an instant is over. -/
def isOver (h : Host) : Option Duration → IO Bool
  | some deadline => do return deadline ≤ (← h.now)
  | none => return false

/-- Sends a request and waits for its answer. -/
def send (h : Host) (r : Request) (deadline : Option Duration) : IO (Option Answer) := do
  if ← h.isOver deadline then return none
  say (requestLine r)
  let line ← (← IO.getStdin).getLine
  if ← h.isOver deadline then return none else return some (answerOf line)

/-- What an action means to the handlers of the controller. -/
def performBeside (h : Host) : (action : Action) → IO action.Result
  | .log level message => h.log level message
  | .now => h.now
  | .sleepUntil instant => h.sleepUntil instant
  | .connect server => say (.object [("connect", .string server)])
  | .send r deadline => h.send r deadline
  | .startController _ => return ()
  | .cancelController => return ()
  | .joinController => return true
  | .countCached => return (0 : Nat)

/-- What a program does where each action has a given meaning. -/
def execute {α : Type} (meaning : (action : Action) → IO action.Result) : Program α → IO α
  | .done value => return value
  | .perform action next => do
    let result ← meaning action
    execute meaning (next result)

/-! ### The controller -/

/-- A list or a watch of the controller, and what is done about it. -/
def turn (h : Host) (c : Controlled) : IO Controlled := do
  let request := c.watcher.request {}
  match ← h.send request none with
  | none => return c
  | some answer =>
    let (items, watcher) := c.watcher.receive answer
    let (ending, store) ← execute h.performBeside
      (Controller.loop .statusProcessor c.store (items.map .item))
    return { kind := c.kind, watcher, store, isRunning := ending = .waiting }

/-- Lets a running controller take its turn. -/
def letTurn (h : Host) : IO Unit := do
  match ← h.controller.get with
  | some c => if c.isRunning then h.controller.set (some (← h.turn c))
  | none => return ()

/-- Starts the controller of a kind. -/
def startController (h : Host) (k : Kind) : IO Unit := do
  h.log .info (Controller.startMessage k)
  h.controller.set (some ⟨k, .start, .empty, true⟩)

/-- Cancels the controller. -/
def cancelController (h : Host) : IO Unit := do
  match ← h.controller.get with
  | some c =>
    if c.isRunning then
      h.log .info (Controller.stopMessage c.kind)
      h.controller.set none
  | none => return ()

/-- How many objects the controller knows. -/
def countCached (h : Host) : IO Nat := do
  return ((← h.controller.get).map (·.store.size)).getD 0

/-- What an action means to the session. -/
def perform (h : Host) : (action : Action) → IO action.Result
  | .sleepUntil instant => do
    h.letTurn
    h.sleepUntil instant
  | .startController k => h.startController k
  | .cancelController => h.cancelController
  | .joinController => do return (← h.controller.get).isNone
  | .countCached => h.countCached
  | action => h.performBeside action

/-! ### Surroundings -/

/-- What is at a path that cannot be read as text. -/
def fileOfError : IO.Error → File
  | .noFileOrDirectory .. => .missing
  | .inappropriateType _ code _ => if code = 20 then .belowFile else .directory
  | .invalidArgument .. => .tooLong
  | .userError _ => .binary
  | e => .unreadable e.toString

/-- What is at a path. -/
def fileAt (path : String) : IO File := do
  match ← (IO.FS.readFile path).toBaseIO with
  | .ok text => return .text text
  | .error e => return fileOfError e

/-- What is at some paths, and nothing elsewhere. -/
def filesAt (paths : List String) : IO Files := do
  let found ← paths.mapM fun path => do return (path, ← fileAt path)
  return fun path => (found.lookup path).getD .missing

/-- The paths that may be asked for: of configurations, of what they name, and of the service
account. -/
def candidates (s : Surroundings) : IO (List String) := do
  let chosen := (CommandLine.parse s.arguments).toOption.bind (·.kubeconfig)
  let listed := Kubeconfig.listedPaths ((s.lookup "KUBECONFIG").getD "")
  let settings := Settings.ofLookup s.lookup s.home
  let configs := chosen.toList ++ [settings.kubeconfig, Settings.kubeconfigBelow s.home] ++ listed
  let files ← filesAt configs
  let named := configs.flatMap fun path =>
    match Kubeconfig.ofFile files path with
    | .ok c => c.paths
    | .error _ => []
  return configs ++ named ++ InCluster.accountFiles

/-- The variables of the environment that the library asks for. -/
def variableNames : List String :=
  ["CRD_NAMESPACE", "KUBECONFIG", "HTTP_PROXY", "HTTPS_PROXY", "KUBERNETES_SERVICE_HOST",
    "KUBERNETES_SERVICE_PORT"]

/-- The present instant in seconds since the start of 1970. -/
def secondsNow : IO Int := do
  return (← Std.Time.Timestamp.now).toSecondsSinceUnixEpoch.val

/-- What the process finds around it. -/
def surroundings (args : List String) : IO Surroundings := do
  let values ← variableNames.mapM fun name => do return (name, ← IO.getEnv name)
  let lookup (name : String) := (values.lookup name).join
  let home := (← IO.getEnv "HOME").getD "/"
  let s : Surroundings := ⟨args, lookup, home, fun _ => .missing, ← secondsNow⟩
  return { s with files := ← filesAt (← candidates s) }

/-- What is said about the arguments of the program. -/
def usage : String :=
  "Usage: [--kind KIND] [--name NAME] [--namespace NAMESPACE] [--kubeconfig PATH] " ++
    "[--linger SECONDS] [--keep-crd]"

/-- The version of the program. -/
def version : String := "0.0.2"

/-- Tells how a session has ended. -/
def tell : Session.Result → IO Unit
  | .finished => return ()
  | .failed failure => failure.report.forM fun line => IO.eprintln line
  | .refused .help => IO.println usage
  | .refused .version => IO.println version
  | .refused _ => IO.eprintln usage

end Host

end CustomResource

/-- The program: a session with the arguments and the environment of the process. -/
def main (args : List String) : IO UInt32 := do
  let filter := ((← IO.getEnv "RUST_LOG").map CustomResource.LogFilter.ofText).getD .standard
  let host : CustomResource.Host := ⟨filter, ← IO.monoNanosNow, ← IO.mkRef none⟩
  let surroundings ← CustomResource.Host.surroundings args
  let result ← CustomResource.Host.execute host.perform (CustomResource.Session.run surroundings)
  CustomResource.Host.tell result
  return UInt32.ofNat result.exitCode
