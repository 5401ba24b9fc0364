import CustomResource.Kubeconfig.Basic
import CustomResource.Kubeconfig.Files

/-!
# Where a configuration leads

The current context of a configuration leads to a cluster and a user. What is said about them is
checked as far as it can be without asking the cluster.

## Main definitions

* `Kubeconfig.Source.load`: the bytes of a source.
* `Kubeconfig.Target`: a cluster and a user.
* `Kubeconfig.resolve`: the target to which the current context leads.
-/

namespace CustomResource.Kubeconfig

/-! ### Bytes -/

/-- Some bytes with a line feed at their end, unless there are none. -/
def withLineFeed (bytes : List UInt8) : List UInt8 :=
  match bytes.getLast? with
  | none => bytes
  | some last => if last = 0x0A then bytes else bytes ++ [0x0A]

/-- The bytes of a source, if one is given. Bytes in base 64 count before a file. -/
def Source.load (files : Files) (s : Source) : Except LoadFault (Option (List UInt8)) :=
  match s.data, s.path with
  | some data, _ =>
    match Text.Base64.decode .ofConfigurations (Text.Pem.bytesOf data) with
    | .ok bytes => .ok (some (withLineFeed bytes))
    | .error f => .error (.base64 f)
  | none, some path =>
    match (files path).read with
    | .ok text => .ok (some (withLineFeed (Text.Pem.bytesOf text)))
    | .error reason => .error (.unreadable path reason)
  | none, none => .ok none

/-! ### Targets -/

/-- A cluster and a user: the server, the certificates by which it is recognised if any are given,
the namespace that is meant unless another one is named, and what is known about the user. -/
structure Target where
  server : String
  authorities : Option (List (List UInt8))
  defaultScope : String
  user : User
  deriving Repr, Inhabited

/-- The name of certificates in the marks around them. -/
def certificateName : String := "CERTIFICATE"

/-- The certificates among the sections of some bytes. -/
def certificatesIn (bytes : List UInt8) : Except Text.Pem.Fault (List (List UInt8)) :=
  (Text.Pem.parse bytes).map fun items =>
    (items.filter fun i => i.name = certificateName).map (·.content)

/-- The certificates by which a cluster is recognised, if any are given. -/
def Cluster.authorities (files : Files) (c : Cluster) :
    Except Error (Option (List (List UInt8))) :=
  match c.authority.load files with
  | .error f => .error (.badAuthority (some f))
  | .ok none => .ok none
  | .ok (some bytes) =>
    match certificatesIn bytes with
    | .ok certificates => .ok (some certificates)
    | .error f => .error (.badCertificates f)

/-- A value that is not empty. -/
def nonempty (value : Option String) : Option String :=
  value.filter (· ≠ "")

/-- The proxy of a cluster: its own, or that of the variables. -/
def Cluster.proxy? (lookup : String → Option String) (c : Cluster) : Option String :=
  (nonempty c.proxy).or ((nonempty (lookup "HTTP_PROXY")).or (nonempty (lookup "HTTPS_PROXY")))

/-- Checks what a command of a user is told of the cluster. -/
def checkCommand (files : Files) (c : Cluster) (u : User) : Except Error Unit :=
  if u.command.any (·.knowsCluster) then
    match c.authority.load files with
    | .ok _ => .ok ()
    | .error f => .error (.badAuthority (some f))
  else .ok ()

/-- The target to which the current context leads, with some variables of the environment. -/
def resolve (files : Files) (lookup : String → Option String) (c : Kubeconfig) :
    Except Error Target := do
  let name ← c.currentContext.elim (.error .currentContextNotSet) .ok
  let context ← (body? name c.contexts).elim (.error (.noContext name)) .ok
  let cluster ← (body? context.cluster c.clusters).elim (.error (.noCluster context.cluster)) .ok
  let user ← (body? context.user c.users).elim (.error (.noUser context.user)) .ok
  checkCommand files cluster user
  let server ← cluster.server.elim (.error .noServer) .ok
  (Uri.check server).mapError .badServer
  let authorities ← cluster.authorities files
  match cluster.proxy? lookup with
  | some proxy => (Uri.check proxy).mapError .badProxy
  | none => pure ()
  return { server, authorities, defaultScope := context.scope.getD "default", user }

end CustomResource.Kubeconfig
