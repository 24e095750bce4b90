/-!
# White space

The characters with the property White_Space, and texts without them at their ends.
-/

namespace ForeignCall.Text

/-- The property White_Space. -/
def isWhiteSpace (c : Char) : Bool :=
  let n := c.toNat
  (9 ≤ n && n ≤ 13) || n == 0x20 || n == 0x85 || n == 0xA0 || n == 0x1680 ||
    (0x2000 ≤ n && n ≤ 0x200A) || n == 0x2028 || n == 0x2029 || n == 0x202F || n == 0x205F ||
    n == 0x3000

/-- The text without the white space at its ends. -/
def trim (cs : List Char) : List Char :=
  ((cs.dropWhile isWhiteSpace).reverse.dropWhile isWhiteSpace).reverse

/-- The pieces of a text between its commas; a text without a comma is one piece. -/
def commaPieces : List Char → List (List Char)
  | [] => [[]]
  | c :: cs =>
    if c = ',' then [] :: commaPieces cs
    else
      match commaPieces cs with
      | [] => [[c]]
      | piece :: pieces => (c :: piece) :: pieces

end ForeignCall.Text
