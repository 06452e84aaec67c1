import Clearance.Digit
import Clearance.Json

/-!
# Numerals

A number as it is spelled in JSON text, and the number it denotes.  Integers of at most 64 bits are
kept exactly, every other numeral stands for a decimal; a numeral whose value is too large for a
binary double is refused.
-/

namespace Clearance

/-! ## Range of a double -/

/-- The natural number with 53 significant bits that is nearest to `n`, a tie going to the even
one. -/
def nearestDouble (n : Nat) : Nat :=
  let step := Nat.pow 2 (n.log2 - 52)
  let below := n / step
  let rest := n % step
  if 2 * rest < step ∨ (2 * rest = step ∧ below % 2 = 0) then below * step else (below + 1) * step

/-- From this bound on a number is nearer to `2 ^ 1024` than to the largest double. -/
def doubleBound : Nat := Nat.pow 2 1024 - Nat.pow 2 970

/-- Whether `significand · 10 ^ exponent` is too large for a double, when both factors are rounded
to doubles before they are multiplied. -/
def overflowsDouble (significand : Nat) (exponent : Int) : Bool :=
  if significand = 0 ∨ exponent < 0 then false
  else exponent > 308
    || nearestDouble significand * nearestDouble (Nat.pow 10 exponent.toNat) ≥ doubleBound

/-- The largest natural number of 64 bits. -/
def maxWord : Nat := 0xFFFFFFFFFFFFFFFF

/-- The largest magnitude of a negative integer of 64 bits. -/
def maxNegativeWord : Nat := 0x8000000000000000

/-- Reads digits into a significand as long as it fits into 64 bits, counting the digits taken;
the third part is what is left. -/
def takeSignificand (significand taken : Nat) : List Char → Nat × Nat × List Char
  | [] => (significand, taken, [])
  | c :: rest =>
    let next := significand * 10 + (c.toNat - '0'.toNat)
    if next ≤ maxWord then takeSignificand next (taken + 1) rest
    else (significand, taken, c :: rest)

/-! ## Numerals of JSON text -/

/-- A numeral as JSON spells it: sign, digits before the point, digits after it if there is one,
power of ten if there is one. -/
structure Numeral where
  negative : Bool
  whole : List Char
  fraction : Option (List Char)
  exponent : Option Int

namespace Numeral

/-- The digits at the start of a text, and what follows them. -/
def splitDigits (text : List Char) : List Char × List Char :=
  (text.takeWhile Char.isDigit, text.dropWhile Char.isDigit)

/-- Without needless leading zeros: `0` alone, or digits that start with another one. -/
def isWhole : List Char → Bool
  | [] => false
  | ['0'] => true
  | c :: _ => c != '0'

/-- The exponent part of a numeral: nothing, or `e` or `E` before an integer. -/
def exponentOf? : List Char → Option (Option Int)
  | [] => some none
  | 'e' :: rest | 'E' :: rest => (intOfDigits? 10 rest).map some
  | _ => none

/-- A numeral read from its spelling. -/
def ofChars? (text : List Char) : Option Numeral := do
  let (negative, unsigned) := match text with
    | '-' :: rest => (true, rest)
    | _ => (false, text)
  let (whole, rest) := splitDigits unsigned
  if !isWhole whole then none
  match rest with
  | '.' :: afterPoint =>
    let (fraction, rest) := splitDigits afterPoint
    if fraction.isEmpty then none
    return { negative, whole, fraction := some fraction, exponent := ← exponentOf? rest }
  | _ => return { negative, whole, fraction := none, exponent := ← exponentOf? rest }

/-- The integer of a numeral that has neither fraction nor exponent, is not the negative zero, and
fits into 64 bits, signed if it is negative. -/
def int? (n : Numeral) : Option Int :=
  if n.fraction.isSome || n.exponent.isSome then none
  else
    let magnitude := decimalValue n.whole
    if n.negative then
      if 0 < magnitude ∧ magnitude ≤ maxNegativeWord then some (-(magnitude : Int)) else none
    else if magnitude ≤ maxWord then some magnitude
    else none

/-- Whether the value is out of the range of a double.  Only the leading digits that fit into a
significand of 64 bits count, later ones before the point as a power of ten. -/
def outOfRange (n : Numeral) : Bool :=
  let (whole, _, dropped) := takeSignificand 0 0 n.whole
  let (significand, fractional, _) := takeSignificand whole 0 (n.fraction.getD [])
  overflowsDouble significand (dropped.length - fractional + n.exponent.getD 0)

/-- The number denoted, if it is in range. -/
def value? (n : Numeral) : Option Number :=
  match n.int? with
  | some i => some (.int i)
  | none =>
    if n.outOfRange then none
    else
      let fraction := n.fraction.getD []
      let magnitude : Int := decimalValue (n.whole ++ fraction)
      let mantissa := if n.negative then -magnitude else magnitude
      some (.decimal mantissa (n.exponent.getD 0 - fraction.length))

end Numeral

/-! ## Spelling -/

/-- An integer in decimal digits, after a minus sign if it is negative. -/
def Number.intChars : Int → List Char
  | .ofNat n => Nat.toDigits 10 n
  | .negSucc n => '-' :: Nat.toDigits 10 (n + 1)

/-- A number in the spelling of JSON text, a decimal with its power of ten. -/
def Number.chars : Number → List Char
  | .int value => intChars value
  | .decimal mantissa exponent => intChars mantissa ++ 'e' :: intChars exponent

end Clearance
