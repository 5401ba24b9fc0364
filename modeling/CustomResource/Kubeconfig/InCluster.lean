import CustomResource.Kubeconfig.Target
import CustomResource.Text.Ipv6

/-!
# Inside of a cluster

A process that runs inside of a cluster finds the server in variables of the environment, and the
rest in files of its service account.

## Main definitions

* `InCluster.Error`: why a process is not inside of a cluster, with its wording.
* `InCluster.target`: the cluster around a process.
-/

namespace CustomResource.InCluster

open Kubeconfig (Target)

/-- Why a number of a port cannot be read. -/
inductive PortFault where
  | empty
  | digit
  | tooLarge
  deriving DecidableEq, Repr, Inhabited

/-- The wording of a fault of a port. -/
def PortFault.message : PortFault → String
  | .empty => "cannot parse integer from empty string"
  | .digit => "invalid digit found in string"
  | .tooLarge => "number too large to fit in target type"

/-- Why a process is not inside of a cluster. -/
inductive Error where
  | noVariable
  | port (fault : PortFault)
  | server (fault : Uri.Fault)
  | scope (reason : String)
  | certificates (reason : String)
  | badCertificates (fault : Text.Pem.Fault)
  deriving DecidableEq, Repr, Inhabited

/-- The wording of an error. -/
def Error.message : Error → String
  | .noVariable =>
    "failed to read an incluster environment variable: environment variable not found"
  | .port f => "failed to parse cluster port: " ++ f.message
  | .server f => "failed to parse cluster url: " ++ f.message
  | .scope reason => "failed to read the default namespace: " ++ reason
  | .certificates reason => "failed to read a certificate bundle: " ++ reason
  | .badCertificates f => "failed to parse PEM-encoded certificates: " ++ f.message

/-- The number that some digits continue. It fits into 16 bits. -/
def readDigits : Nat → List Char → Except PortFault Nat
  | n, [] => .ok n
  | n, c :: cs =>
    if !Text.isDigit c then .error .digit
    else
      let next := 10 * n + (c.toNat - 48)
      if 65535 < next then .error .tooLarge else readDigits next cs

/-- The number of a port in a text. A plus sign may stand before it. -/
def readPort (text : String) : Except PortFault Nat :=
  match text.toList with
  | [] => .error .empty
  | ['+'] => .error .digit
  | '+' :: cs => readDigits 0 cs
  | cs => readDigits 0 cs

/-- The server of a host and a port. The usual port is left out. -/
def serverAt (host : String) (port : Nat) : String :=
  let host := if Text.isIpv6 host then "[" ++ host ++ "]" else host
  "https:/" ++ "/" ++ host ++ (if port = 443 then "" else ":" ++ Text.ofNat port)

/-- The server that the variables name. -/
def server (lookup : String → Option String) : Except Error String := do
  let host ← (lookup "KUBERNETES_SERVICE_HOST").elim (.error .noVariable) .ok
  let text ← (lookup "KUBERNETES_SERVICE_PORT").elim (.error .noVariable) .ok
  let port ← (readPort text).mapError .port
  (Uri.check (serverAt host port)).mapError .server
  return serverAt host port

/-- A file of the service account. -/
def accountFile (name : String) : String :=
  "/var/run/secrets/kubernetes.io/serviceaccount/" ++ name

/-- The files of the service account. -/
def accountFiles : List String := ["namespace", "ca.crt", "token"].map accountFile

/-- The cluster around a process. -/
def target (files : Files) (lookup : String → Option String) : Except Error Target := do
  let server ← server lookup
  let scope ← ((files (accountFile "namespace")).read).mapError .scope
  let bundle ← ((files (accountFile "ca.crt")).read).mapError .certificates
  let authorities ←
    (Kubeconfig.certificatesIn (Text.Pem.bytesOf bundle)).mapError .badCertificates
  let user : Kubeconfig.User := { tokenFile := some (accountFile "token") }
  return { server, authorities := some authorities, defaultScope := scope, user }

end CustomResource.InCluster
