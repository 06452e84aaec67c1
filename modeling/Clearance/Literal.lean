import Clearance.Literal.Extender
import Clearance.Literal.Unprinted

/-!
# Literals

A text as a literal of debugging output: between quotes, with everything escaped that a reader could
not see or could take for the end of the text.
-/

namespace Clearance.Literal

/-- The letters that leave no mark: the fillers that stand in for a missing letter of Hangul. -/
def fillers : List (Nat × Nat) := [(0x115F, 0x1160), (0x3164, 0x3164), (0xFFA0, 0xFFA0)]

/-- Whether a code point lies in one of the runs. -/
def liesIn (runs : List (Nat × Nat)) (code : Nat) : Bool :=
  runs.any fun (first, last) => first ≤ code && code ≤ last

/-- Whether a character leaves a mark that stands for itself. -/
def isVisible (c : Char) : Bool :=
  if c.toNat < 0x7F then 0x20 ≤ c.toNat
  else !(liesIn unprinted c.toNat || liesIn extenders c.toNat || liesIn fillers c.toNat)

/-- A character inside a literal. -/
def escape (c : Char) : List Char :=
  if c = '"' then ['\\', '"']
  else if c = '\\' then ['\\', '\\']
  else if c = '\n' then ['\\', 'n']
  else if c = '\r' then ['\\', 'r']
  else if c = '\t' then ['\\', 't']
  else if c = '\x00' then ['\\', '0']
  else if isVisible c then [c]
  else ['\\', 'u', '\x7b'] ++ Nat.toDigits 16 c.toNat ++ ['\x7d']

/-- The literal of a text. -/
def quote (text : String) : String :=
  String.ofList ('"' :: (text.toList.flatMap escape ++ ['"']))

/-- The literal of a list of texts. -/
def quoteEach (texts : List String) : String := "[" ++ ", ".intercalate (texts.map quote) ++ "]"

end Clearance.Literal
