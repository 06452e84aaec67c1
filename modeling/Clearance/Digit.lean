/-!
# Digits

Numbers read from runs of digits, as JSON text and YAML text share them.
-/

namespace Clearance

/-- The value of a digit in the bases up to sixteen, in either letter case. -/
def digitValue? (c : Char) : Option Nat :=
  if '0' ≤ c ∧ c ≤ '9' then some (c.toNat - '0'.toNat)
  else if 'a' ≤ c ∧ c ≤ 'f' then some (c.toNat - 'a'.toNat + 10)
  else if 'A' ≤ c ∧ c ≤ 'F' then some (c.toNat - 'A'.toNat + 10)
  else none

/-- The number that a run of digits of a base denotes; there must be a digit. -/
def natOfDigits? (base : Nat) (digits : List Char) : Option Nat :=
  if digits.isEmpty then none
  else digits.foldlM (fun value c => do
    let d ← digitValue? c
    if d < base then pure (value * base + d) else none) 0

/-- An integer of a base after an optional sign, `+` or `-`. -/
def intOfDigits? (base : Nat) : List Char → Option Int
  | '-' :: digits => (natOfDigits? base digits).map fun n => -(n : Int)
  | '+' :: digits => (natOfDigits? base digits).map Int.ofNat
  | digits => (natOfDigits? base digits).map Int.ofNat

/-- The number of a run of decimal digits, an empty run being zero. -/
def decimalValue (digits : List Char) : Nat :=
  digits.foldl (fun value c => value * 10 + (c.toNat - '0'.toNat)) 0

end Clearance
