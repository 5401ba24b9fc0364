/-!
# Files

What is found at a path. Configurations name further files, so it has to be known of every path that
may be asked for.

## Main definitions

* `File`: what is at a path.
* `File.read`: what can be read there, or why nothing can.
* `Files`: what is at each path.
-/

namespace CustomResource

/-- What is at a path: nothing, for a reason; something that cannot be read, for a reason; or a
text. -/
inductive File where
  | absent (reason : String)
  | unreadable (reason : String)
  | text (content : String)
  deriving DecidableEq, Repr, Inhabited

namespace File

/-- Nothing is at the path. -/
def missing : File := .absent "No such file or directory (os error 2)"

/-- A part of the path before its end is no directory. -/
def belowFile : File := .absent "Not a directory (os error 20)"

/-- A part of the path, or the whole, is too long. -/
def tooLong : File := .absent "File name too long (os error 36)"

/-- The path holds a character that no path may hold. -/
def unnameable : File := .absent "file name contained an unexpected NUL byte"

/-- A directory is at the path. -/
def directory : File := .unreadable "Is a directory (os error 21)"

/-- Something that is no text is at the path. -/
def binary : File := .unreadable "stream did not contain valid UTF-8"

/-- Whether there is anything at the path. -/
def isPresent : File → Bool
  | .absent _ => false
  | _ => true

/-- What can be read at a path, or why it cannot be read. -/
def read : File → Except String String
  | .absent reason => .error reason
  | .unreadable reason => .error reason
  | .text content => .ok content

end File

/-- What is at each path. -/
abbrev Files : Type := String → File

end CustomResource
