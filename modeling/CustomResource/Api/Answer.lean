import CustomResource.Api.Error
import CustomResource.Decode.Record

/-!
# Answers

What comes back for a request: an HTTP status and a body, or nothing when the connection fails.

## Main definitions

* `Answer`: an answer.
* `Answer.text`: the text of the body, unless the apiserver refused the request.
* `Answer.decode`: the value that an answer holds.
-/

namespace CustomResource

/-- What comes back for a request. -/
inductive Answer where
  | response (code : Nat) (body : ByteArray)
  | noConnection (reason : String) (behind : List String)
  deriving Inhabited

namespace ErrorResponse

/-- The fields of a refusal. -/
inductive Field where
  | status
  | message
  | reason
  | code
  deriving DecidableEq, Repr

/-- The names of the fields of a refusal. -/
def Field.name : Field → String
  | .status => "status"
  | .message => "message"
  | .reason => "reason"
  | .code => "code"

/-- The description of a refusal as a record. Message and reason may be missing. -/
def record : Record Field ErrorResponse where
  title := "struct ErrorResponse"
  fields := [.status, .message, .reason, .code]
  name := Field.name
  Value
    | .status => String
    | .message => String
    | .reason => String
    | .code => Nat
  read
    | .status => Decoder.string
    | .message => Decoder.string
    | .reason => Decoder.string
    | .code => Decoder.uint16
  mayEnd
    | .status => false
    | .message => true
    | .reason => true
    | .code => false
  build slots := do
    let status ← slots.require Field.name .status
    let code ← slots.require Field.name .code
    return {
      status
      message := (slots .message).getD ""
      reason := (slots .reason).getD ""
      code }

/-- Reads a refusal. -/
def decode : Decoder ErrorResponse := record.strict

/-- What a status of HTTP is called. -/
def phrase? : Nat → Option String
  | 400 => some "Bad Request"
  | 401 => some "Unauthorized"
  | 402 => some "Payment Required"
  | 403 => some "Forbidden"
  | 404 => some "Not Found"
  | 405 => some "Method Not Allowed"
  | 406 => some "Not Acceptable"
  | 407 => some "Proxy Authentication Required"
  | 408 => some "Request Timeout"
  | 409 => some "Conflict"
  | 410 => some "Gone"
  | 411 => some "Length Required"
  | 412 => some "Precondition Failed"
  | 413 => some "Payload Too Large"
  | 414 => some "URI Too Long"
  | 415 => some "Unsupported Media Type"
  | 416 => some "Range Not Satisfiable"
  | 417 => some "Expectation Failed"
  | 418 => some "I'm a teapot"
  | 421 => some "Misdirected Request"
  | 422 => some "Unprocessable Entity"
  | 423 => some "Locked"
  | 424 => some "Failed Dependency"
  | 425 => some "Too Early"
  | 426 => some "Upgrade Required"
  | 428 => some "Precondition Required"
  | 429 => some "Too Many Requests"
  | 431 => some "Request Header Fields Too Large"
  | 451 => some "Unavailable For Legal Reasons"
  | 500 => some "Internal Server Error"
  | 501 => some "Not Implemented"
  | 502 => some "Bad Gateway"
  | 503 => some "Service Unavailable"
  | 504 => some "Gateway Timeout"
  | 505 => some "HTTP Version Not Supported"
  | 506 => some "Variant Also Negotiates"
  | 507 => some "Insufficient Storage"
  | 508 => some "Loop Detected"
  | 510 => some "Not Extended"
  | 511 => some "Network Authentication Required"
  | _ => none

/-- The refusal that stands for a body which describes none. -/
def ofBody (code : Nat) (text : String) : ErrorResponse where
  status := Text.ofNat code ++ " " ++ (phrase? code).getD "<unknown status code>"
  message := Text.quoted text
  reason := "Failed to parse error data"
  code

end ErrorResponse

namespace Answer

/-- Whether a status of HTTP means that the request failed. -/
def isFailure (code : Nat) : Bool := 400 ≤ code && code < 600

/-- The refusal in the body of a failed request. A body that describes a refusal is taken at its
word, whatever the status of HTTP. -/
def refusal (code : Nat) (text : String) : ErrorResponse :=
  match Decoder.ofText ErrorResponse.decode text with
  | .ok r => r
  | .error _ => .ofBody code text

/-- The text of the body, unless the apiserver refused the request. -/
def text : Answer → Except Api.Error String
  | .noConnection reason behind => .error (.noConnection reason behind)
  | .response code body =>
    match Text.decodeUtf8 body with
    | .error f => .error (.notUtf8 f)
    | .ok text => if isFailure code then .error (.refused (refusal code text)) else .ok text

/-- The value that an answer holds. -/
def decode {α : Type} (decoder : Decoder α) (answer : Answer) : Except Api.Error α :=
  match answer.text with
  | .error e => .error e
  | .ok text => (Decoder.ofText decoder text).mapError .undecodable

end Answer

end CustomResource
