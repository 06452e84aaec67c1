/-!
# Values

Permission expressions, contexts and policies are JSON values.  Objects keep their entries in the
order written, since an expression is read and decided in that order.
-/

namespace Clearance

/-- A number of a JSON value. -/
inductive Number
  /-- An integer of at most 64 bits. -/
  | int (value : Int)
  /-- Every other number, `mantissa · 10 ^ exponent`. -/
  | decimal (mantissa exponent : Int)
  deriving DecidableEq, Inhabited

/-- A JSON value. -/
inductive Json
  | null
  | bool (value : Bool)
  | number (value : Number)
  | string (text : String)
  | array (items : List Json)
  | object (entries : List (String × Json))
  deriving Inhabited

namespace Json

/-! ## Kinds -/

/-- The six kinds of JSON value. -/
inductive Kind
  | null | boolean | number | string | array | object
  deriving DecidableEq, Inhabited

/-- The name of a kind, as messages write it. -/
def Kind.name : Kind → String
  | null => "null"
  | boolean => "boolean"
  | number => "number"
  | string => "string"
  | array => "array"
  | object => "object"

/-- The kind of a value. -/
def kind : Json → Kind
  | null => .null
  | bool _ => .boolean
  | number _ => .number
  | string _ => .string
  | array _ => .array
  | object _ => .object

/-- Arrays and objects are collections. -/
def isCollection : Json → Bool
  | array _ | object _ => true
  | _ => false

/-! ## Fields -/

/-- The value of a field; a missing field, like every field of a value that is no object, is null. -/
def field (key : String) : Json → Json
  | object entries => (entries.lookup key).getD null
  | _ => null

/-- The entries with `key` bound to `value`: a new key comes last, a known one keeps its place. -/
def bind (key : String) (value : Json) : List (String × Json) → List (String × Json)
  | [] => [(key, value)]
  | (k, v) :: rest => if k = key then (key, value) :: rest else (k, v) :: bind key value rest

/-- The object with these entries, where a repeated key keeps its first place and its last value. -/
def ofEntries (entries : List (String × Json)) : Json :=
  object (entries.foldl (fun known (key, value) => bind key value known) [])

/-! ## Nesting -/

mutual

/-- How many collections are nested in each other at most. -/
def nesting : Json → Nat
  | array items => nestingItems items + 1
  | object entries => nestingEntries entries + 1
  | _ => 0

/-- The deepest nesting among the items of an array. -/
def nestingItems : List Json → Nat
  | [] => 0
  | item :: rest => max (nesting item) (nestingItems rest)

/-- The deepest nesting among the values of an object. -/
def nestingEntries : List (String × Json) → Nat
  | [] => 0
  | (_, value) :: rest => max (nesting value) (nestingEntries rest)

end

end Json

end Clearance
