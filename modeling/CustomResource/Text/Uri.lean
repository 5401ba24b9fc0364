/-!
# URIs

Which texts name a place on a server, or a server: a path with parameters, an authority alone, or a
scheme, an authority and perhaps a path.

## Main definitions

* `Uri.Fault`: why a text is no URI, with its wording.
* `Uri.checkPath`: whether some characters are a path with parameters.
* `Uri.checkAuthority`: whether some characters are an authority.
* `Uri.check`: whether a text is a URI.
-/

namespace CustomResource.Uri

/-- Why a text is no URI. -/
inductive Fault where
  | empty
  | tooLong
  | schemeTooLong
  | character
  | authority
  | format
  deriving DecidableEq, Repr, Inhabited

/-- The wording of a fault. -/
def Fault.message : Fault → String
  | .empty => "empty string"
  | .tooLong => "uri too long"
  | .schemeTooLong => "scheme too long"
  | .character => "invalid uri character"
  | .authority => "invalid authority"
  | .format => "invalid format"

/-! ### Paths -/

/-- Whether a character may stand in a path. -/
def isPathChar (c : Char) : Bool :=
  0x21 ≤ c.toNat && c ≠ '<' && c ≠ '>' && c ≠ '\x60' && c ≠ '\x7F'

/-- Whether a character may stand from the question mark on. -/
def isQueryChar (c : Char) : Bool :=
  0x21 ≤ c.toNat && c ≠ '"' && c ≠ '<' && c ≠ '>' && c ≠ '\x7F'

/-- Checks a path and its parameters. What stands after a number sign is not looked at. -/
def checkPath (cs : List Char) : Except Fault Unit :=
  let cs := cs.takeWhile (· ≠ '#')
  let legal := (cs.takeWhile (· ≠ '?')).all isPathChar && (cs.dropWhile (· ≠ '?')).all isQueryChar
  if legal then .ok () else .error .character

/-! ### Authorities -/

/-- Whether a character may stand anywhere in an authority. -/
def isPlain (c : Char) : Bool :=
  c.isAlphanum || "!$&'()*+,-.;=_~".toList.contains c

/-- Whether a character ends an authority. -/
def endsAuthority (c : Char) : Bool :=
  c = '/' || c = '?' || c = '#'

/-- What has been seen of an authority: colons since the last sign that makes one forget them, a
percent sign since then, brackets, and whether the last character was an at sign. -/
structure Seen where
  colons : Nat := 0
  percent : Bool := false
  opened : Bool := false
  closed : Bool := false
  endsInAt : Bool := false

/-- Goes on with one character of an authority. -/
def step (s : Seen) (c : Char) : Except Fault Seen :=
  let s := { s with endsInAt := false }
  if c = ':' then
    if 8 ≤ s.colons then .error .authority else .ok { s with colons := s.colons + 1 }
  else if c = '[' then
    if s.percent || s.opened then .error .authority else .ok { s with opened := true }
  else if c = ']' then
    if !s.opened || s.closed then .error .authority
    else .ok { s with closed := true, colons := 0, percent := false }
  else if c = '@' then .ok { s with endsInAt := true, colons := 0, percent := false }
  else if c = '%' then .ok { s with percent := true }
  else if isPlain c then .ok s
  else .error .character

/-- Checks the characters before the end of an authority. -/
def checkAuthority (cs : List Char) : Except Fault Unit := do
  let s ← cs.foldlM step {}
  if s.opened == s.closed && s.colons ≤ 1 && !s.endsInAt && !s.percent then return ()
  else throw .authority

/-! ### Whole texts -/

/-- Whether a character may stand in a scheme. -/
def isSchemeChar (c : Char) : Bool :=
  c.isAlphanum || c = '+' || c = '-' || c = '.' || c = '~'

/-- The scheme at the start of a text, and the characters after it, its colon and slashes. -/
def scheme? (cs : List Char) : Option (List Char × List Char) :=
  match cs.dropWhile isSchemeChar with
  | ':' :: '/' :: '/' :: rest =>
    if cs.length ≤ 3 then none else some (cs.takeWhile isSchemeChar, rest)
  | _ => none

/-- Checks an authority and what stands after it. With a scheme before it the authority may not be
empty; without one nothing may stand after it. -/
def checkServer (hasScheme : Bool) (cs : List Char) : Except Fault Unit := do
  if cs.isEmpty then throw .empty
  let authority := cs.takeWhile fun c => !endsAuthority c
  let rest := cs.drop authority.length
  checkAuthority authority
  if hasScheme then
    if authority.isEmpty then throw .format else checkPath rest
  else if rest.isEmpty then return () else throw .format

/-- The greatest size of a URI in bytes. -/
def greatestSize : Nat := 65534

/-- The greatest length of a scheme. -/
def greatestScheme : Nat := 64

/-- Checks a text. -/
def check (text : String) : Except Fault Unit :=
  if greatestSize < text.utf8ByteSize then .error .tooLong
  else
    match text.toList with
    | [] => .error .empty
    | ['*'] => .ok ()
    | '/' :: rest => checkPath ('/' :: rest)
    | [c] => if endsAuthority c then .error .character else checkAuthority [c]
    | cs =>
      match scheme? cs with
      | none => checkServer false cs
      | some (scheme, rest) =>
        if greatestScheme < scheme.length then .error .schemeTooLong else checkServer true rest

end CustomResource.Uri
