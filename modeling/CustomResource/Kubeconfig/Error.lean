import CustomResource.Decode.Error
import CustomResource.Text.Pem
import CustomResource.Text.Uri
import CustomResource.Yaml.Flow

/-!
# Errors of cluster configuration

Why no cluster can be reached: the configuration file cannot be read, or does not lead to a cluster
and a user.

## Main definitions

* `Kubeconfig.Error`: the errors, with `message` and the `causes` behind it.
-/

namespace CustomResource

namespace Kubeconfig

/-- Why some bytes that a configuration gives, or the file that it names for them, cannot be
loaded. -/
inductive LoadFault where
  | base64 (fault : Text.Base64.Fault)
  | unreadable (path : String) (reason : String)
  deriving DecidableEq, Repr, Inhabited

/-- The texts of a fault in loading, the nearest first. -/
def LoadFault.texts : LoadFault → List String
  | .base64 f =>
    let text := f.message .ofConfigurations
    ["failed to decode base64 data: " ++ text, text]
  | .unreadable path reason =>
    ["failed to read file '" ++ Text.quoted path ++ "': " ++ reason, reason]

/-- Why a configuration file does not lead to a cluster. -/
inductive Error where
  | currentContextNotSet
  | kindMismatch
  | versionMismatch
  | noContext (name : String)
  | noCluster (name : String)
  | noUser (name : String)
  | noPath
  | unreadable (path : String) (reason : String)
  | malformed (fault : Yaml.Fault)
  | wrongStructure (error : DecodeError)
  | noServer
  | badServer (fault : Uri.Fault)
  | badProxy (fault : Uri.Fault)
  | badAuthority (fault : Option LoadFault)
  | badCertificates (fault : Text.Pem.Fault)
  deriving DecidableEq, Repr, Inhabited

namespace Error

/-- What is wrong with the structure of a configuration. -/
def structureText (e : DecodeError) : String := e.messageIn .ofConfigurations

/-- The wording of an error. -/
def message : Error → String
  | .currentContextNotSet => "failed to determine current context"
  | .kindMismatch => "kubeconfigs with mismatching kind cannot be merged"
  | .versionMismatch => "kubeconfigs with mismatching api version cannot be merged"
  | .noContext name => "failed to load current context: " ++ name
  | .noCluster name => "failed to load the cluster of context: " ++ name
  | .noUser name => "failed to find named user: " ++ name
  | .noPath => "failed to find the path of kubeconfig"
  | .unreadable path reason =>
    "failed to read kubeconfig from '" ++ Text.quoted path ++ "': " ++ reason
  | .malformed f => "failed to parse kubeconfig YAML: " ++ f.message
  | .wrongStructure e =>
    "the structure of the parsed kubeconfig is invalid: " ++ structureText e
  | .noServer => "cluster url is missing on selected cluster"
  | .badServer f => "failed to parse cluster url: " ++ f.message
  | .badProxy f => "failed to parse proxy url: " ++ f.message
  | .badAuthority _ => "failed to load certificate authority"
  | .badCertificates f => "failed to parse PEM-encoded certificates: " ++ f.message

/-- The texts of what is behind an error, from the nearest cause on. -/
def causes : Error → List String
  | .unreadable _ reason => [reason]
  | .malformed f => [f.message]
  | .wrongStructure e => [structureText e]
  | .badServer f => [f.message]
  | .badProxy f => [f.message]
  | .badAuthority (some f) => f.texts
  | .badCertificates f => f.message :: f.causes
  | _ => []

end Error

end Kubeconfig

end CustomResource
