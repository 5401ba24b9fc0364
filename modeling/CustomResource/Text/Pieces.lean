/-!
# Pieces of a text

A text is cut at a character into the pieces between its occurrences. There is one piece more than
there are occurrences.

## Main definitions

* `splitAt`: the pieces.
-/

namespace CustomResource.Text

/-- The pieces of a text between the occurrences of a character. -/
def splitAt (sep : Char) : List Char → List (List Char)
  | [] => [[]]
  | c :: cs =>
    match splitAt sep cs with
    | [] => [[c]]
    | piece :: pieces => if c = sep then [] :: piece :: pieces else (c :: piece) :: pieces

end CustomResource.Text
