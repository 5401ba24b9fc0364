import CustomResource.Simulation.World
import CustomResource.Text.Ipv6
import CustomResource.Text.Uri

/-!
# Isolated processes

A process to which no network is open. All of its requests fail, and how they fail follows from the
server that it has connected to: an address cannot be reached, a name cannot be looked up, and what
is neither is not even tried.

## Main definitions

* `Isolation.Place`: where a server is looked for.
* `Isolation.placeOf`: the place that a server names.
* `Isolation.Place.outage`: why a place has not been reached.
* `World.executeAlone`: the result of a program in an isolated process.
-/

namespace CustomResource

namespace Isolation

/-! ### Places -/

/-- Where a server is looked for: at an address or under a name. A server may also have a scheme
that is not spoken, have no scheme, or be nothing but a path. -/
inductive Place where
  | address
  | name
  | foreignScheme (scheme : String)
  | noScheme
  | path
  deriving DecidableEq, Repr, Inhabited

/-- The characters after the last one of some kind, or all of them. -/
def afterLast (mark : Char) (cs : List Char) : List Char :=
  (cs.reverse.takeWhile (· ≠ mark)).reverse

/-- The host in an authority, without the brackets around an address with colons. -/
def hostOf (authority : List Char) : List Char :=
  match afterLast '@' authority with
  | '[' :: rest => rest.takeWhile (· ≠ ']')
  | cs => cs.takeWhile (· ≠ ':')

/-- Whether a host is an address, or the name that every process knows of itself. -/
def isAddress (host : List Char) : Bool :=
  Text.isIpv4 host || Text.isIpv6 (String.ofList host) || host.map Char.toLower = "localhost".toList

/-- The schemes that are spoken. -/
def spoken : List String := ["http", "https"]

/-- The place that a server names. -/
def placeOf (server : String) : Place :=
  let cs := server.toList
  if cs.head? = some '/' ∨ cs = ['*'] then .path
  else
    match Uri.scheme? cs with
    | none => .noScheme
    | some (scheme, rest) =>
      if spoken.contains (String.ofList (scheme.map Char.toLower)) then
        if isAddress (hostOf (rest.takeWhile fun c => !Uri.endsAuthority c)) then .address
        else .name
      else .foreignScheme (String.ofList scheme)

/-! ### Outages -/

/-- How a connection that cannot be made is reported. -/
def noConnection : String := "client error (Connect)"

/-- Why a place has not been reached: the reason, and what is behind it. -/
def Place.outage : Place → String × List String
  | .address => (noConnection, ["tcp connect error", "Network is unreachable (os error 101)"])
  | .name =>
    (noConnection, ["dns error",
      "failed to lookup address information: Temporary failure in name resolution"])
  | .foreignScheme scheme => (noConnection, ["unsupported scheme " ++ scheme])
  | .noScheme => ("buffer's worker closed unexpectedly", [])
  | .path => ("client error (UserAbsoluteUriRequired)", [])

/-- What every request to a server gets. -/
def answer (server : String) : PreparedAnswer :=
  let (reason, behind) := (placeOf server).outage
  { content := .failure reason behind, delay := .zero, times := none }

end Isolation

namespace World

/-- What an action means in an isolated process. -/
def performAlone : (action : Action) → World → action.Result × World
  | .connect server, w => ((), { w with script := [Isolation.answer server] })
  | action, w => w.perform action

/-- The result of a program in an isolated process, and the world after it. -/
def executeAlone {α : Type} (p : Program α) (w : World) : α × World :=
  p.run performAlone w

end World

end CustomResource
