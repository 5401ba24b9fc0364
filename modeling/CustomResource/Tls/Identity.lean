import CustomResource.Text.Pem
import CustomResource.Text.Quoted
import CustomResource.Tls.Der

/-!
# The identity of a client

A client may show who it is by a certificate and the private key that belongs to it. Both are given
as sections of a text.

## Main definitions

* `Identity.Fault`: why some bytes are no identity, with its wording and what is behind it.
* `Identity.check`: whether some bytes are an identity.
-/

namespace CustomResource.Tls.Identity

open Der (Value)

/-! ### Faults -/

/-- Why some bytes are no identity. -/
inductive Fault where
  | notSections (reason : String)
  | unknownSection
  | noKey
  | noCertificate
  | badKey
  deriving DecidableEq, Repr, Inhabited

namespace Fault

/-- What is wrong with a key. -/
def keyText : String :=
  "unexpected error: failed to parse private key as RSA, ECDSA, or EdDSA"

/-- The wording of a fault. -/
def message : Fault → String
  | .notSections reason => "identity PEM is invalid: " ++ reason
  | .unknownSection => "unknown private key format"
  | .noKey =>
    "identity PEM is missing a private key: the key must be PKCS8 or RSA/PKCS1"
  | .noCertificate => "identity PEM is missing certificate"
  | .badKey => "invalid private key: " ++ keyText

/-- The texts of what is behind a fault. -/
def causes : Fault → List String
  | .notSections reason => [reason]
  | .badKey => [keyText]
  | _ => []

end Fault

/-! ### Sections -/

/-- What is known of the section that is being read: the end of its name, and its data so far. -/
structure Open where
  name : String
  data : List Char
  deriving Repr, Inhabited

/-- A line without blanks at its end. -/
def trimmedLine (line : List Char) : List Char :=
  (line.reverse.dropWhile fun c => c = ' ' || c = '\r').reverse

/-- The name in a mark that opens a section: five hyphens stand after it. -/
def openingName? (line : List Char) : Option String :=
  let body := (trimmedLine line).drop 11
  let hyphens := (body.reverse.takeWhile (· = '-')).length
  if hyphens = 5 then some (String.ofList (body.take (body.length - 5))) else none

/-- The mark that closes a section of that name. -/
def closingMark (name : String) : String := "-----END " ++ name ++ "-----"

/-- How a fault in base 64 is named here. -/
def dataText : Text.Base64.Fault → String
  | .byte value offset =>
    "InvalidByte(" ++ Text.ofNat offset ++ ", " ++ Text.ofNat value.toNat ++ ")"
  | .length n => "InvalidLength(" ++ Text.ofNat n ++ ")"
  | .lastSymbol value offset =>
    "InvalidLastSymbol(" ++ Text.ofNat offset ++ ", " ++ Text.ofNat value.toNat ++ ")"
  | .padding => "InvalidPadding"

/-- The bytes of some data in base 64. Equals signs at the end may be left out. -/
def decodeData (data : List Char) : Except Fault (List UInt8) :=
  let letters := (data.reverse.dropWhile (· = '=')).reverse
  let filled := letters ++ List.replicate ((4 - letters.length % 4) % 4) '='
  (Text.Base64.decode .ofConfigurations (Text.Pem.bytesOf (String.ofList filled))).mapError fun f =>
    .notSections (dataText f)

/-- The sections of some lines, after those of the section that is open. -/
def sectionsIn : Option Open → List (List Char) → Except Fault (List Text.Pem.Item)
  | none, [] => .ok []
  | some s, [] =>
    .error (.notSections ("section end " ++ Text.quoted (closingMark s.name) ++ " missing"))
  | current, line :: lines =>
    if "-----BEGIN ".toList.isPrefixOf line then
      match openingName? line with
      | some name => sectionsIn (some ⟨name, []⟩) lines
      | none =>
        .error (.notSections
          ("illegal section start: " ++ Text.quoted (String.ofList line ++ "\n")))
    else
      match current with
      | none => sectionsIn none lines
      | some s =>
        if (closingMark s.name).toList.isPrefixOf line then do
          let content ← decodeData s.data
          let more ← sectionsIn none lines
          return ⟨s.name, content⟩ :: more
        else sectionsIn (some { s with data := s.data ++ trimmedLine line }) lines

/-! ### Keys -/

/-- The names of the sections that hold a key, the preferred one first. -/
def keyNames : List String := ["PRIVATE KEY", "RSA PRIVATE KEY", "EC PRIVATE KEY"]

/-- The names of other sections that are known, and are no part of an identity. -/
def foreignNames : List String := ["X509 CRL", "CERTIFICATE REQUEST", "PUBLIC KEY"]

/-- Whether some bytes are a private key in one of the usual forms: with its algorithm, the numbers
of RSA, or a number on a curve. -/
def isKey (bytes : List UInt8) : Bool :=
  match Der.sequence? bytes with
  | some (version :: second :: rest) =>
    version.tag = Der.integer &&
      ((second.tag = Der.sequence && rest.head?.any fun v => v.tag = Der.octetString) ||
        (second.tag = Der.octetString) ||
        (second.tag = Der.integer && rest.length = 7 && rest.all fun v => v.tag = Der.integer))
  | _ => false

/-- The key of some sections: of those with one name the last, of several names the preferred. -/
def key? (sections : List Text.Pem.Item) : Option (List UInt8) :=
  keyNames.findSome? fun name =>
    ((sections.filter fun s => s.name = name).getLast?).map (·.content)

/-! ### Identities -/

/-- Checks whether some bytes hold a key and a certificate. -/
def check (bytes : List UInt8) : Except Fault Unit := do
  let text := (Text.decodeUtf8 ⟨bytes.toArray⟩).toOption.getD ""
  let sections ← sectionsIn none (Text.splitAt '\n' text.toList)
  if sections.any fun s => foreignNames.contains s.name then throw .unknownSection
  match key? sections with
  | none => throw .noKey
  | some key =>
    if !sections.any fun s => s.name = "CERTIFICATE" then throw .noCertificate
    else if isKey key then return ()
    else throw .badKey

end CustomResource.Tls.Identity
