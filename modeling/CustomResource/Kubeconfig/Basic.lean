import CustomResource.Kubeconfig.Error

/-!
# Cluster configuration

A configuration names clusters, users and contexts; the current context leads to one of each. Of
several entries of one name the first one counts.

## Main definitions

* `Kubeconfig.Cluster`, `Kubeconfig.User`, `Kubeconfig.Context`: what entries say.
* `Kubeconfig`: a configuration, with `merge`.
* `Kubeconfig.body?`: what an entry says under its name.
-/

namespace CustomResource

namespace Kubeconfig

/-- An entry of a configuration: a name, and what is known under it. -/
structure Named (α : Type) where
  name : String
  body : Option α
  deriving Repr, Inhabited

/-- Bytes that are given in base 64, or by the path of a file. -/
structure Source where
  data : Option String := none
  path : Option String := none
  deriving DecidableEq, Repr, Inhabited

/-- What a configuration says about a cluster. -/
structure Cluster where
  server : Option String := none
  authority : Source := {}
  proxy : Option String := none
  deriving Repr, Inhabited

/-- A program or service that knows the token of a user, and what it is told. -/
structure Provider where
  name : String
  config : List (String × String)
  deriving Repr, Inhabited

/-- A command that tells the credentials of a user. It may be told of the cluster. -/
structure Command where
  program : Option String
  knowsCluster : Bool
  deriving Repr, Inhabited

/-- What a configuration says about a user: a password or a token, who else can tell one, a
certificate and its key, and as whom the user acts. -/
structure User where
  name : Option String := none
  password : Option String := none
  token : Option String := none
  tokenFile : Option String := none
  certificate : Source := {}
  key : Source := {}
  actsAs : Option String := none
  actsIn : List String := []
  provider : Option Provider := none
  command : Option Command := none
  deriving Repr, Inhabited

/-- Which cluster and user belong together, and which namespace is meant there. -/
structure Context where
  cluster : String
  user : String
  scope : Option String := none
  deriving Repr, Inhabited

end Kubeconfig

/-- A configuration. -/
structure Kubeconfig where
  clusters : List (Kubeconfig.Named Kubeconfig.Cluster) := []
  users : List (Kubeconfig.Named Kubeconfig.User) := []
  contexts : List (Kubeconfig.Named Kubeconfig.Context) := []
  currentContext : Option String := none
  kind : Option String := none
  apiVersion : Option String := none
  deriving Repr, Inhabited

namespace Kubeconfig

/-- The body of the first entry of a name. -/
def body? {α : Type} (name : String) (es : List (Named α)) : Option α :=
  (es.find? fun e => e.name = name).bind (·.body)

/-! ### Merging -/

/-- The entries of a list, and those of another one under names that the first has not. -/
def mergeEntries {α : Type} (base more : List (Named α)) : List (Named α) :=
  base ++ more.filter fun e => !base.any fun b => b.name = e.name

/-- Whether two texts differ that are both given. -/
def disagree (a b : Option String) : Bool :=
  a.isSome && b.isSome && a ≠ b

/-- A configuration with what another one adds to it. -/
def merge (base more : Kubeconfig) : Except Error Kubeconfig :=
  if disagree base.kind more.kind then .error .kindMismatch
  else if disagree base.apiVersion more.apiVersion then .error .versionMismatch
  else .ok
    { clusters := mergeEntries base.clusters more.clusters
      users := mergeEntries base.users more.users
      contexts := mergeEntries base.contexts more.contexts
      currentContext := base.currentContext.or more.currentContext
      kind := base.kind.or more.kind
      apiVersion := base.apiVersion.or more.apiVersion }

/-! ### Paths -/

/-- Bytes whose path is meant in a given way. -/
def Source.relocate (place : String → String) (s : Source) : Source :=
  { s with path := s.path.map place }

/-- An entry whose body has been changed. -/
def Named.mapBody {α : Type} (change : α → α) (e : Named α) : Named α :=
  { e with body := e.body.map change }

/-- A cluster whose paths are meant in a given way. -/
def Cluster.relocate (place : String → String) (c : Cluster) : Cluster :=
  { c with authority := c.authority.relocate place }

/-- A user whose paths are meant in a given way. -/
def User.relocate (place : String → String) (u : User) : User :=
  { u with
    certificate := u.certificate.relocate place
    key := u.key.relocate place
    tokenFile := u.tokenFile.map place }

/-- A configuration whose paths are meant in a given way. -/
def relocate (place : String → String) (c : Kubeconfig) : Kubeconfig :=
  { c with
    clusters := c.clusters.map (·.mapBody (Cluster.relocate place))
    users := c.users.map (·.mapBody (User.relocate place)) }

/-- The paths of all files that a configuration names. -/
def paths (c : Kubeconfig) : List String :=
  (c.clusters.filterMap fun e => e.body.bind (·.authority.path)) ++
    c.users.flatMap fun e =>
      e.body.toList.flatMap fun u =>
        u.certificate.path.toList ++ u.key.path.toList ++ u.tokenFile.toList

end Kubeconfig

end CustomResource
