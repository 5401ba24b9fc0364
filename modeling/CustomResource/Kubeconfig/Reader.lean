import CustomResource.Decode.Record
import CustomResource.Kubeconfig.Basic
import CustomResource.Resource.Metadata

/-!
# Reading cluster configurations

The configuration that a value describes. Null stands for a record, a list or a map without anything
in it, and members that are no field are passed over.

## Main definitions

* `Kubeconfig.decode`: reads a configuration.
* `Kubeconfig.ofText`: the configuration that a text describes.
-/

namespace CustomResource

namespace Kubeconfig

/-! ### Parts -/

/-- Reads a record. -/
def readRecord {F α : Type} [DecidableEq F] (r : Record F α) : Decoder α
  | depth, .null => r.lenient depth (.object [] none)
  | depth, node => r.lenient depth node

/-- Reads a list. -/
def readList {α : Type} (item : Decoder α) : Decoder (List α)
  | depth, .null => Decoder.list item depth (.array [] none)
  | depth, node => Decoder.list item depth node

/-- Reads a map of texts. -/
def readTexts : Decoder (List (String × String))
  | depth, .null => Decoder.stringMap depth (.object [] none)
  | depth, node => Decoder.stringMap depth node

/-- Reads a text that may be null. -/
def readText : Decoder (Option String) := Decoder.optional Decoder.string

/-- Reads a truth value that may be null. -/
def readFlag : Decoder (Option Bool) := Decoder.optional Decoder.bool

/-- The fields of an entry. -/
inductive NamedField where
  | name
  | body
  deriving DecidableEq, Repr

/-- The description of an entry whose body stands under a key. -/
def namedRecord {α : Type} (title key : String) (body : Decoder α) :
    Record NamedField (Named α) where
  title := title
  fields := [.name, .body]
  name
    | .name => "name"
    | .body => key
  Value
    | .name => String
    | .body => Option α
  read
    | .name => Decoder.string
    | .body => Decoder.optional body
  mayEnd _ := true
  build slots := do
    let name ← slots.require (fun _ => "name") .name
    return { name, body := (slots .body).join }

/-- Reads some entries whose bodies stand under a key. A null stands for none. -/
def entries {α : Type} (title key : String) (body : Decoder α) : Decoder (List (Named α)) :=
  readList (readRecord (namedRecord title key body))

/-- The description of an extension, an entry whose body may be anything and has to be there. -/
def extensionRecord : Record NamedField Unit where
  title := "struct NamedExtension"
  fields := [.name, .body]
  name
    | .name => "name"
    | .body => "extension"
  Value
    | .name => String
    | .body => Json
  read
    | .name => Decoder.string
    | .body => Decoder.json
  mayEnd _ := true
  build slots := do
    let _ ← slots.require (fun _ => "name") .name
    let _ ← slots.require (fun _ => "extension") .body
    return ()

/-- Reads some extensions. They are not used. -/
def extensions : Decoder Unit := fun depth node =>
  (Decoder.optional (readList (readRecord extensionRecord)) depth node).map fun _ => ()

/-! ### Clusters -/

/-- The fields of a cluster: texts, a truth value, and extensions. -/
inductive ClusterField where
  | text (name : String)
  | insecure
  | extensions
  deriving DecidableEq, Repr

/-- The description of a cluster as a record. -/
def clusterRecord : Record ClusterField Cluster where
  title := "struct Cluster"
  fields := [.text "server", .insecure, .text "certificate-authority",
    .text "certificate-authority-data", .text "proxy-url", .text "tls-server-name", .extensions]
  name
    | .text name => name
    | .insecure => "insecure-skip-tls-verify"
    | .extensions => "extensions"
  Value
    | .text _ => Option String
    | .insecure => Option Bool
    | .extensions => Unit
  read
    | .text _ => readText
    | .insecure => readFlag
    | .extensions => extensions
  mayEnd _ := true
  build slots := .ok
    { server := (slots (.text "server")).join
      authority :=
        { data := (slots (.text "certificate-authority-data")).join
          path := (slots (.text "certificate-authority")).join }
      proxy := (slots (.text "proxy-url")).join }

/-! ### Users -/

/-- The fields of a provider of tokens. -/
inductive ProviderField where
  | name
  | config
  deriving DecidableEq, Repr

/-- The description of a provider of tokens as a record. -/
def providerRecord : Record ProviderField Provider where
  title := "struct AuthProviderConfig"
  fields := [.name, .config]
  name
    | .name => "name"
    | .config => "config"
  Value
    | .name => String
    | .config => List (String × String)
  read
    | .name => Decoder.string
    | .config => readTexts
  mayEnd _ := true
  build slots := do
    let name ← slots.require (fun _ => "name") .name
    return { name, config := (slots .config).getD [] }

/-- Reads when a command may ask questions. -/
def readInteraction : Decoder Unit
  | _, .string ⟨.ok word, _⟩ =>
    let words := ["Never", "IfAvailable", "Always"]
    if words.contains word then .ok () else .error (.unknownVariant word words)
  | _, node => .error (Decoder.mismatch "a Value::Tag enum" node)

/-- The fields of a command. -/
inductive CommandField where
  | apiVersion
  | command
  | args
  | env
  | interactiveMode
  | provideClusterInfo
  deriving DecidableEq, Repr

/-- The description of a command as a record. -/
def commandRecord : Record CommandField Command where
  title := "struct ExecConfig"
  fields := [.apiVersion, .command, .args, .env, .interactiveMode, .provideClusterInfo]
  name
    | .apiVersion => "apiVersion"
    | .command => "command"
    | .args => "args"
    | .env => "env"
    | .interactiveMode => "interactiveMode"
    | .provideClusterInfo => "provideClusterInfo"
  Value
    | .apiVersion => Option String
    | .command => Option String
    | .args => Option (List String)
    | .env => Option (List (List (String × String)))
    | .interactiveMode => Option Unit
    | .provideClusterInfo => Bool
  read
    | .apiVersion => readText
    | .command => readText
    | .args => Decoder.optional (readList Decoder.string)
    | .env => Decoder.optional (readList readTexts)
    | .interactiveMode => Decoder.optional readInteraction
    | .provideClusterInfo => Decoder.bool
  mayEnd _ := true
  build slots := .ok
    { program := (slots .command).join
      knowsCluster := (slots .provideClusterInfo).getD false }

/-- The fields of a user: texts, groups, a provider of tokens, and a command. -/
inductive UserField where
  | text (name : String)
  | groups
  | provider
  | command
  deriving DecidableEq, Repr

/-- The description of a user as a record. -/
def userRecord : Record UserField User where
  title := "struct AuthInfo"
  fields := [.text "username", .text "password", .text "token", .text "tokenFile",
    .text "client-certificate", .text "client-certificate-data", .text "client-key",
    .text "client-key-data", .text "as", .groups, .provider, .command]
  name
    | .text name => name
    | .groups => "as-groups"
    | .provider => "auth-provider"
    | .command => "exec"
  Value
    | .text _ => Option String
    | .groups => Option (List String)
    | .provider => Option Provider
    | .command => Option Command
  read
    | .text _ => readText
    | .groups => Decoder.optional (readList Decoder.string)
    | .provider => Decoder.optional (readRecord providerRecord)
    | .command => Decoder.optional (readRecord commandRecord)
  mayEnd _ := true
  build slots := .ok
    { name := (slots (.text "username")).join
      password := (slots (.text "password")).join
      token := (slots (.text "token")).join
      tokenFile := (slots (.text "tokenFile")).join
      certificate :=
        { data := (slots (.text "client-certificate-data")).join
          path := (slots (.text "client-certificate")).join }
      key :=
        { data := (slots (.text "client-key-data")).join
          path := (slots (.text "client-key")).join }
      actsAs := (slots (.text "as")).join
      actsIn := (slots .groups).join.getD []
      provider := (slots .provider).join
      command := (slots .command).join }

/-! ### Contexts -/

/-- The fields of a context. -/
inductive ContextField where
  | cluster
  | user
  | scope
  | extensions
  deriving DecidableEq, Repr

/-- The names of the fields of a context. -/
def ContextField.name : ContextField → String
  | .cluster => "cluster"
  | .user => "user"
  | .scope => "namespace"
  | .extensions => "extensions"

/-- The description of a context as a record. Cluster and user are required. -/
def contextRecord : Record ContextField Context where
  title := "struct Context"
  fields := [.cluster, .user, .scope, .extensions]
  name := ContextField.name
  Value
    | .cluster => String
    | .user => String
    | .scope => Option String
    | .extensions => Unit
  read
    | .cluster => Decoder.string
    | .user => Decoder.string
    | .scope => readText
    | .extensions => extensions
  mayEnd _ := true
  build slots := do
    let cluster ← slots.require ContextField.name .cluster
    let user ← slots.require ContextField.name .user
    return { cluster, user, scope := (slots .scope).join }

/-! ### Configurations -/

/-- The fields of the preferences. -/
inductive PreferenceField where
  | colors
  | extensions
  deriving DecidableEq, Repr

/-- The description of the preferences as a record. They are not used. -/
def preferenceRecord : Record PreferenceField Unit where
  title := "struct Preferences"
  fields := [.colors, .extensions]
  name
    | .colors => "colors"
    | .extensions => "extensions"
  Value
    | .colors => Option Bool
    | .extensions => Unit
  read
    | .colors => readFlag
    | .extensions => extensions
  mayEnd _ := true
  build _ := .ok ()

/-- The fields of a configuration: lists of entries, texts, preferences and extensions. -/
inductive Field where
  | clusters
  | users
  | contexts
  | text (name : String)
  | preferences
  | extensions
  deriving DecidableEq, Repr

/-- The description of a configuration as a record. -/
def record : Record Field Kubeconfig where
  title := "struct Kubeconfig"
  fields := [.preferences, .clusters, .users, .contexts, .text "current-context", .extensions,
    .text "kind", .text "apiVersion"]
  name
    | .clusters => "clusters"
    | .users => "users"
    | .contexts => "contexts"
    | .text name => name
    | .preferences => "preferences"
    | .extensions => "extensions"
  Value
    | .clusters => List (Named Cluster)
    | .users => List (Named User)
    | .contexts => List (Named Context)
    | .text _ => Option String
    | .preferences => Option Unit
    | .extensions => Unit
  read
    | .clusters => entries "struct NamedCluster" "cluster" (readRecord clusterRecord)
    | .users => entries "struct NamedAuthInfo" "user" (readRecord userRecord)
    | .contexts => entries "struct NamedContext" "context" (readRecord contextRecord)
    | .text _ => readText
    | .preferences => Decoder.optional (readRecord preferenceRecord)
    | .extensions => extensions
  mayEnd _ := true
  build slots := .ok
    { clusters := (slots .clusters).getD []
      users := (slots .users).getD []
      contexts := (slots .contexts).getD []
      currentContext := (slots (.text "current-context")).join
      kind := (slots (.text "kind")).join
      apiVersion := (slots (.text "apiVersion")).join }

/-- Reads a configuration. -/
def decode : Decoder Kubeconfig := readRecord record

/-! ### Texts -/

/-- The configuration that a value of a document describes. How deep it is nested has been looked at
before. -/
def ofValue (value : Json) : Except Error Kubeconfig :=
  (decode (2 * Yaml.greatestDepth) value.toNode).mapError .wrongStructure

/-- The configuration that a text describes. An empty text describes an empty one. -/
def ofText (text : String) : Except Error Kubeconfig :=
  match Yaml.ofText text with
  | .error f => .error (.malformed f)
  | .ok none => .ok {}
  | .ok (some value) => ofValue value

end Kubeconfig

end CustomResource
