import Clearance.Gate
import Clearance.Json

/-!
# Keys

What a key of an expression stands for.  The keywords are matched in any letter case; letters are
those of ASCII, since the keywords have no others.
-/

namespace Clearance

/-! ## Words -/

/-- Whether two texts differ at most in the case of ASCII letters. -/
def sameWord (a b : String) : Bool := a.toList.map Char.toUpper == b.toList.map Char.toUpper

/-- A text differs from itself in nothing. -/
@[simp] theorem sameWord_self (a : String) : sameWord a a = true := by simp [sameWord]

/-- Whether two texts differ does not depend on their order. -/
theorem sameWord_comm (a b : String) : sameWord a b = sameWord b a := by
  simp [sameWord, Bool.beq_comm]

namespace Keyword

/-- The key of the entry that restricts the bypass. -/
def noBypass : String := "NO_BYPASS"

/-- An older spelling of that key, known at the top level of an expression. -/
def noBypassOlder : String := "no_bypass"

/-- The word for the constant true. -/
def trueWord : String := "TRUE"

/-- The word for the constant false. -/
def falseWord : String := "FALSE"

/-- Every keyword.  None of them, in any letter case, can name a permission type. -/
def reserved : List String := Gate.all.map Gate.keyword ++ [noBypass, trueWord, falseWord]

end Keyword

/-- The gate of a keyword. -/
def Gate.ofWord? (word : String) : Option Gate := Gate.all.find? (sameWord word ·.keyword)

/-- Every keyword of a gate names that gate. -/
theorem Gate.ofWord?_keyword (gate : Gate) : Gate.ofWord? gate.keyword = some gate := by
  cases gate <;> decide

/-- The gate that a JSON value names: its keyword as it is, or that keyword as the only key of an
object, with the value null. -/
def Gate.ofJson? : Json → Option Gate
  | .string word | .object [(word, .null)] => Gate.all.find? (word == ·.keyword)
  | _ => none

/-- The constant that a word stands for. -/
def constantOfWord? (word : String) : Option Bool :=
  if sameWord word Keyword.trueWord then some true
  else if sameWord word Keyword.falseWord then some false
  else none

/-- A position: one or more decimal digits. -/
def isPosition (key : String) : Bool := !key.toList.isEmpty && key.toList.all Char.isDigit

/-! ## Keys -/

/-- What a key stands for. -/
inductive Key
  /-- The position of an item. -/
  | position
  /-- The bypass restriction. -/
  | noBypass
  /-- A gate over the value. -/
  | gate (gate : Gate)
  /-- A constant, which can have no value of its own. -/
  | constant (value : Bool)
  /-- The permission type of the value. -/
  | type (name : String)
  deriving DecidableEq, Inhabited

/-- What a key stands for; whatever is neither a position nor a keyword names a type. -/
def Key.ofText (text : String) : Key :=
  if isPosition text then position
  else if sameWord text Keyword.noBypass then noBypass
  else match Gate.ofWord? text with
    | some g => gate g
    | none => match constantOfWord? text with
      | some value => constant value
      | none => type text

/-- The keyword of a gate stands for that gate. -/
theorem Key.ofText_keyword (g : Gate) : Key.ofText g.keyword = gate g := by
  cases g <;> decide

/-- Only a text that stands for a type is read as one, and it is read as it is. -/
theorem Key.eq_of_ofText_eq_type {text name : String} (h : Key.ofText text = type name) :
    text = name := by
  unfold Key.ofText at h
  repeat' split at h
  all_goals simp_all

end Clearance
