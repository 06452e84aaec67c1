import Clearance.Json.Numeral
import Clearance.Json.Token

/-!
# JSON as written

A text is read in two steps.  `Written.ofText?` gives the value as it is written, with every entry
of an object, repeated keys included, and with strings and numerals that may denote nothing.
`Written.value?` gives the value denoted.  The first step reads anything that is JSON by its
grammar, however deep, so that a part which nobody asks for is never refused.
-/

namespace Clearance.Json

/-- A JSON value as it is written. -/
inductive Written
  | null
  | bool (value : Bool)
  | numeral (value : Numeral)
  | string (pieces : List Piece)
  | array (items : List Written)
  | object (entries : List (List Piece × Written))
  deriving Inhabited

namespace Written

/-! ## Reading tokens -/

/-- A collection that has been opened and not closed, around the value that is being read. -/
inductive Frame
  /-- The items before the one being read, last first. -/
  | array (items : List Written)
  /-- The entries before the one being read, last first, and its key. -/
  | object (entries : List (List Piece × Written)) (key : List Piece)
  deriving Inhabited

/-- What a reader waits for, inside the frames opened so far, the innermost first. -/
inductive Awaited
  /-- A value. -/
  | value (frames : List Frame)
  /-- The first item of an array, or its end. -/
  | item (frames : List Frame)
  /-- The first key of an object, or its end. -/
  | firstKey (frames : List Frame)
  /-- A further key of an object. -/
  | key (frames : List Frame) (entries : List (List Piece × Written))
  /-- The colon after a key. -/
  | colon (frames : List Frame) (entries : List (List Piece × Written)) (key : List Piece)
  /-- What follows a value: a comma or the end of the collection around it. -/
  | next (frames : List Frame) (read : Written)
  deriving Inhabited

/-- A literal or a numeral. -/
def ofWord? (letters : List Char) : Option Written :=
  if letters = ['n', 'u', 'l', 'l'] then some null
  else if letters = ['t', 'r', 'u', 'e'] then some (bool true)
  else if letters = ['f', 'a', 'l', 's', 'e'] then some (bool false)
  else (Numeral.ofChars? letters).map numeral

/-- Reads the first token of a value. -/
def stepValue (frames : List Frame) : Token → Option Awaited
  | .openArray => some (.item frames)
  | .openObject => some (.firstKey frames)
  | .word letters => (ofWord? letters).map (.next frames)
  | .string pieces => some (.next frames (string pieces))
  | _ => none

/-- Reads the token after a value. -/
def stepNext (read : Written) : List Frame → Token → Option Awaited
  | .array items :: frames, .comma => some (.value (.array (read :: items) :: frames))
  | .array items :: frames, .closeArray => some (.next frames (array (read :: items).reverse))
  | .object entries key :: frames, .comma => some (.key frames ((key, read) :: entries))
  | .object entries key :: frames, .closeObject =>
    some (.next frames (object ((key, read) :: entries).reverse))
  | _, _ => none

/-- Reads one token. -/
def step : Awaited → Token → Option Awaited
  | .value frames, token => stepValue frames token
  | .item frames, .closeArray => some (.next frames (array []))
  | .item frames, token => stepValue (.array [] :: frames) token
  | .firstKey frames, .closeObject => some (.next frames (object []))
  | .firstKey frames, .string key => some (.colon frames [] key)
  | .key frames entries, .string key => some (.colon frames entries key)
  | .colon frames entries key, .colon => some (.value (.object entries key :: frames))
  | .next frames read, token => stepNext read frames token
  | _, _ => none

/-- The value that is complete once all tokens are read. -/
def finish? : Awaited → Option Written
  | .next [] read => some read
  | _ => none

/-- The value that a sequence of tokens writes. -/
def ofTokens? (tokens : List Token) : Option Written :=
  (tokens.foldlM step (.value [])).bind finish?

/-- The value that a text writes. -/
def ofText? (text : String) : Option Written := (Token.scan text.toList).bind ofTokens?

/-! ## Nesting -/

mutual

/-- How many collections are nested in each other at most. -/
def nesting : Written → Nat
  | array items => nestingItems items + 1
  | object entries => nestingEntries entries + 1
  | _ => 0

/-- The deepest nesting among the items of an array. -/
def nestingItems : List Written → Nat
  | [] => 0
  | item :: rest => max (nesting item) (nestingItems rest)

/-- The deepest nesting among the values of an object. -/
def nestingEntries : List (List Piece × Written) → Nat
  | [] => 0
  | (_, value) :: rest => max (nesting value) (nestingEntries rest)

end

/-! ## The value denoted -/

mutual

/-- The value denoted, if every string and numeral in it denotes something. -/
def value? : Written → Option Json
  | null => some .null
  | bool value => some (.bool value)
  | numeral n => n.value?.map .number
  | string pieces => (Piece.text? pieces).map .string
  | array items => (items? items).map .array
  | object entries => (entries? entries).map ofEntries

/-- The values of the items of an array. -/
def items? : List Written → Option (List Json)
  | [] => some []
  | item :: rest => do
    let first ← value? item
    return first :: (← items? rest)

/-- The keys and values of the entries of an object. -/
def entries? : List (List Piece × Written) → Option (List (String × Json))
  | [] => some []
  | (key, value) :: rest => do
    let name ← Piece.text? key
    let first ← value? value
    return (name, first) :: (← entries? rest)

end

/-- The value denoted, if it nests at most `limit` collections. -/
def valueWithin? (limit : Nat) (written : Written) : Option Json :=
  if written.nesting ≤ limit then written.value? else none

end Written

end Clearance.Json
