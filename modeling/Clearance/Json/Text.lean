import Clearance.Json.Written

/-!
# JSON text

`Json.render` writes a value without blanks; `Json.ofText?` reads a text that nests no more
collections than a given limit.
-/

namespace Clearance.Json

/-! ## Writing -/

mutual

/-- The tokens of a value. -/
def tokens : Json → List Token
  | null => [.word ['n', 'u', 'l', 'l']]
  | bool true => [.word ['t', 'r', 'u', 'e']]
  | bool false => [.word ['f', 'a', 'l', 's', 'e']]
  | number value => [.word value.chars]
  | string text => [.string (Piece.ofText text)]
  | array [] => [.openArray, .closeArray]
  | array (item :: rest) => .openArray :: (tokens item ++ moreItems rest)
  | object [] => [.openObject, .closeObject]
  | object ((key, value) :: rest) =>
    .openObject :: .string (Piece.ofText key) :: .colon :: (tokens value ++ moreEntries rest)

/-- The items after the first, each after a comma, and the end of the array. -/
def moreItems : List Json → List Token
  | [] => [.closeArray]
  | item :: rest => .comma :: (tokens item ++ moreItems rest)

/-- The entries after the first, each after a comma, and the end of the object. -/
def moreEntries : List (String × Json) → List Token
  | [] => [.closeObject]
  | (key, value) :: rest =>
    .comma :: .string (Piece.ofText key) :: .colon :: (tokens value ++ moreEntries rest)

end

/-- The text of a value, without blanks. -/
def render (value : Json) : String := String.ofList (value.tokens.flatMap Token.chars)

/-! ## Reading -/

/-- The value that a text denotes, if it nests at most `limit` collections. -/
def ofText? (limit : Nat) (text : String) : Option Json :=
  (Written.ofText? text).bind (Written.valueWithin? limit)

/-- The nesting that a text from outside may have. -/
def textLimit : Nat := 127

end Clearance.Json
