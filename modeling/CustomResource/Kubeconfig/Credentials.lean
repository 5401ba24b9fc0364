import CustomResource.Clock.Timestamp
import CustomResource.Kubeconfig.Target
import CustomResource.Text.Quoted
import CustomResource.Tls.Certificate
import CustomResource.Tls.Identity

/-!
# Credentials

What a user is known by at the cluster: a token, a password, or a certificate, and as whom the user
acts. Commands and other services that tell a token are not there to be asked.

## Main definitions

* `Credentials.Fault`: why a user has no usable token, with its wording and what is behind it.
* `Credentials.checkToken`: whether a user has a usable token, or needs none.
* `Credentials.EncryptionFault`: why no encrypted connection can be made.
* `Credentials.checkEncryption`: whether encrypted connections can be made.
* `Credentials.isHeaderText`: whether a text can be sent beside a request.
-/

namespace CustomResource.Credentials

open Kubeconfig (Provider Source Target User)

/-! ### Tokens -/

/-- Why a user has no usable token. -/
inductive Fault where
  | provider (reason : String)
  | expiry (fault : Timestamp.Fault)
  | tokenFile (path : String) (reason : String)
  | noProgram
  | noStart (reason : String)
  deriving DecidableEq, Repr, Inhabited

namespace Fault

/-- The wording of a fault. -/
def message : Fault → String
  | .provider reason => "failed exec auth: " ++ reason
  | .expiry f => "malformed token expiration date: " ++ f.message
  | .tokenFile path reason => "failed to read token file '" ++ Text.quoted path ++ "': " ++ reason
  | .noProgram => "command must be specified to use exec authentication plugin"
  | .noStart reason => "unable to run auth exec: " ++ reason

/-- The texts of what is behind a fault. -/
def causes : Fault → List String
  | .expiry f => [f.message]
  | .tokenFile _ reason => [reason]
  | .noStart reason => [reason]
  | _ => []

end Fault

/-- Why a program cannot be started that is not there. -/
def noSuchProgram : String := "No such file or directory (os error 2)"

/-- How a program is reported that a provider cannot start. -/
def missingProgram (program : String) : String :=
  "Executing " ++ program ++ " failed: Os \x7b code: 2, kind: NotFound, message: " ++
    Text.quoted "No such file or directory" ++ " \x7d"

/-- How many seconds a token has to last still. -/
def leastLife : Int := 60

/-- Checks a provider that keeps tokens, at an instant in seconds: one that is known and lasts, or
else the program that tells one. -/
def checkTokenStore (present : Int) (config : List (String × String)) : Except Fault Unit :=
  let askProgram : Except Fault Unit :=
    match config.lookup "cmd-path" with
    | some program => .error (.provider (missingProgram program))
    | none =>
      .error (.provider
        "Enable oauth feature to use Google Application Credentials-based token source")
  match config.lookup "id-token", config.lookup "access-token", config.lookup "expiry" with
  | some _, _, _ => .ok ()
  | none, some _, some expiry =>
    match Timestamp.ofText expiry with
    | .error f => .error (.expiry f)
    | .ok t => if present + leastLife < t.seconds then .ok () else askProgram
  | none, _, _ => askProgram

/-- Checks a provider of tokens at an instant in seconds. -/
def checkProvider (present : Int) (p : Provider) : Except Fault Unit :=
  if p.name = "oidc" then
    if (p.config.lookup "id-token").isSome then .ok ()
    else .error (.provider "No id-token for oidc Authentication provider")
  else if p.name = "gcp" then checkTokenStore present p.config
  else if p.name = "azure" then
    .error (.provider ("The azure auth plugin is not supported; " ++
      "use https:/" ++ "/github.com/Azure/kubelogin instead"))
  else .error (.provider ("Authentication with provider " ++ p.name ++ " not supported"))

/-- Checks whether a user has a usable token at an instant in seconds, or needs none. A provider
counts first, then a password, a token, a file with one, and a command. -/
def checkToken (files : Files) (present : Int) (u : User) : Except Fault Unit :=
  match u.provider with
  | some provider => checkProvider present provider
  | none =>
    if (u.name.isSome && u.password.isSome) || u.token.isSome then .ok ()
    else
      match u.tokenFile, u.command with
      | some path, _ =>
        match (files path).read with
        | .ok _ => .ok ()
        | .error reason => .error (.tokenFile path reason)
      | none, some command =>
        if command.program.isSome then .error (.noStart noSuchProgram) else .error .noProgram
      | none, none => .ok ()

/-! ### Encryption -/

/-- Why no encrypted connection can be made: a certificate of the cluster or the identity of the
user is not usable. -/
inductive EncryptionFault where
  | authority (fault : Tls.Certificate.Fault)
  | identity (fault : Tls.Identity.Fault)
  deriving DecidableEq, Repr, Inhabited

namespace EncryptionFault

/-- The wording of a fault. -/
def message : EncryptionFault → String
  | .authority f => "failed to add a root certificate: " ++ f.message
  | .identity f => f.message

/-- The texts of what is behind a fault. -/
def causes : EncryptionFault → List String
  | .authority f => [f.message]
  | .identity f => f.causes

end EncryptionFault

/-- The bytes of the key and the certificate of a user, if both can be loaded. -/
def identity? (files : Files) (u : User) : Option (List UInt8) :=
  match u.key.load files, u.certificate.load files with
  | .ok (some key), .ok (some certificate) => some (key ++ certificate)
  | _, _ => none

/-- Checks whether encrypted connections to a target can be made. -/
def checkEncryption (files : Files) (t : Target) : Except EncryptionFault Unit := do
  ((t.authorities.getD []).forM Tls.Certificate.check).mapError .authority
  match identity? files t.user with
  | some bytes => (Tls.Identity.check bytes).mapError .identity
  | none => return ()

/-! ### Acting as someone else -/

/-- Whether a text can be sent beside a request: it has no controls but tabs. -/
def isHeaderText (text : String) : Bool :=
  text.toList.all fun c => c = '\t' || (0x20 ≤ c.toNat && c.toNat ≠ 0x7F)

/-- Whether it can be sent beside requests as whom a user acts. -/
def canAct (u : User) : Bool :=
  (u.actsAs.toList ++ u.actsIn).all isHeaderText

end CustomResource.Credentials
