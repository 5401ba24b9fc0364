import CustomResource.Kubeconfig.Credentials

/-!
# Errors of requests

Why a request to the apiserver has no usable answer: it could not be built, it was not answered, the
apiserver refused it, or its answer cannot be read. Without usable credentials there is no client
that could send any.

## Main definitions

* `ErrorResponse`: a refusal by the apiserver.
* `Api.Error`: the errors, with `message` and the `causes` behind it.
-/

namespace CustomResource

/-- A refusal by the apiserver. -/
structure ErrorResponse where
  status : String
  message : String
  reason : String
  code : Nat
  deriving DecidableEq, Repr, Inhabited

namespace ErrorResponse

/-- The message and the reason of a refusal. -/
def summary (r : ErrorResponse) : String := r.message ++ ": " ++ r.reason

/-- All fields of a refusal. -/
def details (r : ErrorResponse) : String :=
  "ErrorResponse \x7b status: " ++ Text.quoted r.status ++ ", message: " ++ Text.quoted r.message ++
    ", reason: " ++ Text.quoted r.reason ++ ", code: " ++ Text.ofNat r.code ++ " \x7d"

end ErrorResponse

namespace Api

/-- Why a request cannot be built. -/
inductive RequestFault where
  | uri (fault : Uri.Fault)
  | notValid (reason : String)
  deriving DecidableEq, Repr, Inhabited

/-- The wording of a fault of a request and of what is behind it. -/
def RequestFault.texts : RequestFault → List String
  | .uri f => ["failed to build request: " ++ f.message, f.message]
  | .notValid reason => ["failed to validate request: " ++ reason]

/-- Why a request has no usable answer. A failed connection has a reason and what is behind it. -/
inductive Error where
  | refused (response : ErrorResponse)
  | noConnection (reason : String) (behind : List String)
  | undecodable (error : DecodeError)
  | notUtf8 (fault : Text.Utf8Fault)
  | badRequest (fault : RequestFault)
  | unreadableStream (reason : String)
  | lineTooLong
  | noEncryption
  | noToken (fault : Credentials.Fault)
  | badEncryption (fault : Credentials.EncryptionFault)
  | badHeader
  deriving DecidableEq, Repr, Inhabited

namespace Error

/-- What is wrong with a text that cannot be sent beside a request. -/
def headerText : String := "failed to parse header value"

/-- The wording of an error. -/
def message : Error → String
  | .refused r => "ApiError: " ++ r.summary ++ " (" ++ r.details ++ ")"
  | .noConnection reason _ => "ServiceError: " ++ reason
  | .undecodable _ => "Error deserializing response"
  | .notUtf8 f => "UTF-8 Error: " ++ f.message
  | .badRequest f => "Failed to build request: " ++ (f.texts.head?).getD ""
  | .unreadableStream reason => "Error reading events stream: " ++ reason
  | .lineTooLong => "Error finding newline character"
  | .noEncryption => "TLS required but no TLS stack selected"
  | .noToken f => "auth error: " ++ f.message
  | .badEncryption f => "rustls tls error: " ++ f.message
  | .badHeader => "HttpError: " ++ headerText

/-- The texts of what is behind an error, from the nearest cause on. -/
def causes : Error → List String
  | .refused r => [r.summary]
  | .noConnection reason behind => reason :: behind
  | .undecodable e => [e.message]
  | .notUtf8 f => [f.message]
  | .badRequest f => f.texts
  | .unreadableStream reason => [reason]
  | .lineTooLong => []
  | .noEncryption => []
  | .noToken f => f.message :: f.causes
  | .badEncryption f => f.message :: f.causes
  | .badHeader => [headerText]

/-- The code with which the apiserver refused the request. -/
def code? : Error → Option Nat
  | .refused r => some r.code
  | _ => none

/-- Whether the apiserver has no such object. -/
def isNotFound (e : Error) : Bool := e.code? = some 404

end Error

end Api

end CustomResource
