import CustomResource.Api.Answer
import CustomResource.Api.Request
import CustomResource.Clock.Duration

/-!
# Scripted answers

An apiserver can be stood in for by a queue of prepared answers: each request takes the next one,
whatever it asks for. When the queue is empty every request is refused.

## Main definitions

* `PreparedAnswer`: an answer with its delay, and how often it is given.
* `Script.next`: the answer at the front of a queue, and the queue after it.
* `PreparedAnswer.answer`: what a request gets from an answer.
-/

namespace CustomResource

/-- What is answered: a body, the body of the request itself, or nothing, because the connection
fails. -/
inductive PreparedContent where
  | body (code : Nat) (bytes : ByteArray)
  | echo (code : Nat)
  | failure (reason : String) (behind : List String)
  deriving Inhabited

/-- A prepared answer. It is given for ever if no number of times is set. -/
structure PreparedAnswer where
  content : PreparedContent
  delay : Duration
  times : Option Nat
  deriving Inhabited

namespace PreparedAnswer

/-- The body of a request as it is sent. -/
def sentBody (r : Request) : ByteArray :=
  match r.body with
  | some (_, body) => body.render.toUTF8
  | none => .empty

/-- What a request gets. -/
def answer (a : PreparedAnswer) (r : Request) : Answer :=
  match a.content with
  | .body code bytes => .response code bytes
  | .echo code => .response code (sentBody r)
  | .failure reason behind => .noConnection reason behind

/-- The body that an exhausted script answers. -/
def exhaustedBody : Json :=
  .object
    [ ("kind", .string "Status"),
      ("apiVersion", .string "v1"),
      ("metadata", .object []),
      ("status", .string "Failure"),
      ("message", .string "script exhausted"),
      ("reason", .string "InternalError"),
      ("code", .number (.int 500)) ]

/-- The answer of an exhausted script. -/
def exhausted : PreparedAnswer where
  content := .body 500 exhaustedBody.render.toUTF8
  delay := .ofMillis 0
  times := none

end PreparedAnswer

/-- A queue of prepared answers. -/
abbrev Script : Type := List PreparedAnswer

namespace Script

/-- What is left of an answer once it has been given. -/
def left (a : PreparedAnswer) (rest : Script) : Script :=
  match a.times with
  | none => a :: rest
  | some n => if n ≤ 1 then rest else { a with times := some (n - 1) } :: rest

/-- The answer at the front of a queue, and the queue after it. -/
def next : Script → PreparedAnswer × Script
  | [] => (.exhausted, [])
  | a :: rest => (a, left a rest)

end Script

end CustomResource
