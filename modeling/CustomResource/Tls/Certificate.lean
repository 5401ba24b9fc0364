import CustomResource.Tls.Der

/-!
# Certificates that are trusted

Whether the bytes of a certificate can be taken as those of an authority. Names, times and keys are
not looked into.

## Main definitions

* `Certificate.Fault`: why some bytes are no certificate of an authority, with its wording.
* `Certificate.check`: whether some bytes are a certificate of an authority.
-/

namespace CustomResource.Tls.Certificate

open Der (Value)

/-- Why some bytes are no certificate of an authority. -/
inductive Fault where
  | encoding
  | algorithmMismatch
  | criticalExtension
  deriving DecidableEq, Repr, Inhabited

/-- The wording of a fault. -/
def Fault.message : Fault → String
  | .encoding => "invalid peer certificate: BadEncoding"
  | .algorithmMismatch =>
    "invalid peer certificate: Other(OtherError(SignatureAlgorithmMismatch))"
  | .criticalExtension =>
    "invalid peer certificate: Other(OtherError(UnsupportedCriticalExtension))"

/-- The start of the names of the extensions of certificates. -/
def extensionPrefix : List UInt8 := [0x55, 0x1D]

/-- The last bytes of the names of the extensions that are understood. -/
def knownExtensions : List UInt8 := [15, 17, 19, 30, 31, 37]

/-- Whether an extension of that name is understood. -/
def isKnown (name : List UInt8) : Bool :=
  name.length = 3 && extensionPrefix.isPrefixOf name &&
    knownExtensions.contains (name.getLast?.getD 0)

/-- Checks an extension. One that counts has to be understood. -/
def checkExtension (v : Value) : Except Fault Unit :=
  match v.inside? Der.sequence with
  | some [name, value] =>
    if name.tag = Der.identifier ∧ value.tag = Der.octetString then .ok () else .error .encoding
  | some [name, critical, value] =>
    if name.tag = Der.identifier ∧ critical.tag = Der.boolean ∧ value.tag = Der.octetString then
      if critical.content = [0xFF] ∧ !isKnown name.content then .error .criticalExtension
      else .ok ()
    else .error .encoding
  | _ => .error .encoding

/-- Checks the field of the extensions. -/
def checkExtensions (v : Value) : Except Fault Unit :=
  match v.inside? (Der.field 3) with
  | some [list] =>
    match list.inside? Der.sequence with
    | some extensions => extensions.forM checkExtension
    | none => .error .encoding
  | _ => .error .encoding

/-- Whether a value is the version of a certificate with extensions. -/
def isVersion (v : Value) : Bool :=
  v.inside? (Der.field 0) = some [⟨Der.integer, [2]⟩]

/-- Whether some values are an algorithm, issuer, times, subject and key, all sequences. -/
def areSequences (vs : List Value) : Bool :=
  vs.length = 5 && vs.all fun v => v.tag = Der.sequence

/-- Checks what is signed in a certificate, with the algorithm of the signature. -/
def checkSigned (algorithm : Value) (signed : List Value) : Except Fault Unit :=
  match signed with
  | [] => .error .encoding
  | first :: rest =>
    if isVersion first then
      match rest with
      | serial :: rest =>
        if serial.tag ≠ Der.integer ∨ !areSequences (rest.take 5) then .error .encoding
        else if rest.head? ≠ some algorithm then .error .algorithmMismatch
        else
          match rest.drop 5 with
          | [] => .ok ()
          | [extensions] => checkExtensions extensions
          | _ => .error .encoding
      | [] => .error .encoding
    else if first.tag = Der.integer ∧ areSequences rest then .ok ()
    else .error .encoding

/-- Checks whether some bytes are a certificate of an authority: what is signed, the algorithm, and
the signature. -/
def check (bytes : List UInt8) : Except Fault Unit :=
  match Der.sequence? bytes with
  | some [signed, algorithm, signature] =>
    match signed.inside? Der.sequence with
    | some values =>
      if algorithm.tag = Der.sequence ∧ signature.tag = Der.bitString ∧
        signature.content.head? = some 0 then checkSigned algorithm values
      else .error .encoding
    | none => .error .encoding
  | _ => .error .encoding

end CustomResource.Tls.Certificate
