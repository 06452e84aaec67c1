import Clearance.Json.Numeral
import Clearance.Yaml.Node

/-!
# Values of YAML nodes

A plain scalar stands for null, a boolean or a number if it is spelled like one, and otherwise for a
text.  A key of a mapping is the text of its scalar, however it is spelled.  An alias has the value of
the node that it stands for; as that node may hold the alias itself, or others that multiply it, both
the nesting and the number of aliases that are followed are limited.
-/

namespace Clearance.Yaml

/-! ## Plain scalars -/

/-- Whether a plain scalar is null. -/
def isNull (text : String) : Bool := ["", "null", "Null", "NULL", "~"].contains text

/-- The boolean of a plain scalar. -/
def boolOf? (text : String) : Option Bool :=
  if ["true", "True", "TRUE"].contains text then some true
  else if ["false", "False", "FALSE"].contains text then some false
  else none

/-- Whether there are further digits after a leading zero and a sign; this is no number. -/
def hasLeadingZero (text : List Char) : Bool :=
  let unsigned := match text with
    | '-' :: rest | '+' :: rest => rest
    | _ => text
  match unsigned with
  | '0' :: rest => !rest.isEmpty && rest.all Char.isDigit
  | _ => false

/-- The digits of an integer without its sign, after the mark of their base if it is not ten. -/
def magnitude? : List Char → Option Nat
  | '0' :: 'x' :: digits => natOfDigits? 16 digits
  | '0' :: 'o' :: digits => natOfDigits? 8 digits
  | '0' :: 'b' :: digits => natOfDigits? 2 digits
  | digits => natOfDigits? 10 digits

/-- The integer of a plain scalar. -/
def intOf? (text : List Char) : Option Int :=
  if hasLeadingZero text then none
  else match text with
    | '-' :: rest => (magnitude? rest).map fun n => -(n : Int)
    | '+' :: rest => (magnitude? rest).map Int.ofNat
    | _ => (magnitude? text).map Int.ofNat

/-- The integers of 64 bits, signed if negative. -/
def isWord (value : Int) : Bool := -maxNegativeWord ≤ value && value ≤ maxWord

/-- The integers of 128 bits, signed if negative. -/
def isDoubleWord (value : Int) : Bool :=
  -Nat.pow 2 127 ≤ value && value < Nat.pow 2 128

/-- The decimal number of a plain scalar, as a mantissa and a power of ten; there is a digit before
or after the point. -/
def decimalOf? (text : List Char) : Option (Int × Int) := do
  if hasLeadingZero text then none
  let (negative, unsigned) := match text with
    | '-' :: rest => (true, rest)
    | '+' :: rest => (false, rest)
    | _ => (false, text)
  let (whole, rest) := Numeral.splitDigits unsigned
  let (fraction, rest) := match rest with
    | '.' :: afterPoint => Numeral.splitDigits afterPoint
    | _ => ([], rest)
  if whole.isEmpty && fraction.isEmpty then none
  let exponent ← Numeral.exponentOf? rest
  let magnitude : Int := decimalValue (whole ++ fraction)
  return (if negative then -magnitude else magnitude, exponent.getD 0 - fraction.length)

/-- Whether a decimal number is nearer to the bound of the doubles than to any double. -/
def exceedsDouble (mantissa exponent : Int) : Bool :=
  let magnitude := mantissa.natAbs
  if magnitude = 0 then false
  else if 0 ≤ exponent then
    400 < exponent || doubleBound ≤ magnitude * Nat.pow 10 exponent.toNat
  else
    (-exponent).toNat < magnitude.log2 && doubleBound * Nat.pow 10 (-exponent).toNat ≤ magnitude

/-- The words for infinity and for what is no number; as values they are null. -/
def isNotFinite (text : String) : Bool :=
  [".inf", ".Inf", ".INF", "+.inf", "+.Inf", "+.INF", "-.inf", "-.Inf", "-.INF", ".nan", ".NaN",
    ".NAN"].contains text

/-- The value of a plain scalar that is no integer. -/
def ofPlainOther (text : String) : Json :=
  if isNotFinite text then .null
  else match decimalOf? text.toList with
    | some (mantissa, exponent) =>
      if exceedsDouble mantissa exponent then .string text
      else .number (.decimal mantissa exponent)
    | none => .string text

/-- The value of a plain scalar; there is none for an integer of more than 64 bits that fits into
128, while a larger one counts as a decimal. -/
def ofPlain? (text : String) : Option Json :=
  if isNull text then some .null
  else match boolOf? text with
    | some value => some (.bool value)
    | none => match intOf? text.toList with
      | some value =>
        if isWord value then some (.number (.int value))
        else if isDoubleWord value then none
        else some (ofPlainOther text)
      | none => some (ofPlainOther text)

/-! ## Nodes -/

namespace Document

/-- A step of reading the values of a document, which may fail; the state is how many more aliases
may be followed. -/
abbrev Reading (α : Type) : Type := StateT Nat Option α

/-- How many aliases may be followed in all while a document is read. -/
def aliasLimit (document : Document) : Nat := 100 * document.root.size

/-- The node that an alias stands for, and any other node itself. -/
def follow (document : Document) : Node → Reading Node
  | .alias number => do
    match ← get with
    | 0 => failure
    | left + 1 =>
      set left
      StateT.lift (document.named.lookup number)
  | node => return node

/-- The text of a key. -/
def key (document : Document) (node : Node) : Reading String := do
  match ← document.follow node with
  | .scalar _ text => return text
  | _ => failure

/-- The value of a node that nests at most `depth` collections. -/
def value (document : Document) (depth : Nat) (node : Node) : Reading Json := do
  match ← document.follow node, depth with
  | .scalar true text, _ => StateT.lift (ofPlain? text)
  | .scalar false text, _ => return .string text
  | .sequence items, depth + 1 => return .array (← items.mapM (document.value depth))
  | .mapping entries, depth + 1 =>
    return .ofEntries (← entries.mapM fun (key, node) =>
      return (← document.key key, ← document.value depth node))
  | _, _ => failure

/-- The nesting that a document may have. -/
def nestingLimit : Nat := 128

end Document

end Clearance.Yaml
