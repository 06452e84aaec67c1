/-!
# Logic gates

The six gates of an expression: how many inputs each takes, and how it combines them.  A gate reads
its inputs from left to right and stops as soon as the inputs read settle its value, so an input is
an action, run only when the gate reads it.
-/

namespace Clearance

/-- The six logic gates. -/
inductive Gate
  | and | nand | or | nor | xor | not
  deriving DecidableEq, Inhabited

namespace Gate

/-- Every gate, in the order in which keywords are listed. -/
def all : List Gate := [and, nand, or, nor, xor, not]

/-- The keyword of a gate. -/
def keyword : Gate → String
  | and => "AND"
  | nand => "NAND"
  | or => "OR"
  | nor => "NOR"
  | xor => "XOR"
  | not => "NOT"

/-! ## Numbers of inputs -/

/-- The least number of inputs: exclusion needs two, every other gate one. -/
def minInputs : Gate → Nat
  | xor => 2
  | _ => 1

/-- The largest number of inputs, where there is one. -/
def maxInputs : Gate → Option Nat
  | not => some 1
  | _ => none

/-- Only negation takes a value that is no collection. -/
def takesScalar : Gate → Bool
  | not => true
  | _ => false

/-- Whether a gate can have this many inputs. -/
def admits (gate : Gate) (count : Nat) : Bool :=
  gate.minInputs ≤ count && gate.maxInputs.all (count ≤ ·)

/-! ## Values -/

/-- What is known of the inputs read so far: whether one was true, and whether one was false. -/
structure Seen where
  anyTrue : Bool := false
  anyFalse : Bool := false
  deriving DecidableEq, Inhabited

/-- What is known after one more input. -/
def Seen.add (seen : Seen) : Bool → Seen
  | true => { seen with anyTrue := true }
  | false => { seen with anyFalse := true }

/-- Whether no further input can change the value of a gate. -/
def settled (gate : Gate) (seen : Seen) : Bool :=
  match gate with
  | and | nand => seen.anyFalse
  | or | nor => seen.anyTrue
  | xor => seen.anyTrue && seen.anyFalse
  | not => seen.anyTrue || seen.anyFalse

/-- The value of a gate on the inputs read; exclusion holds of inputs that differ. -/
def verdict (gate : Gate) (seen : Seen) : Bool :=
  match gate with
  | and => !seen.anyFalse
  | nand => seen.anyFalse
  | or => seen.anyTrue
  | nor => !seen.anyTrue
  | xor => seen.anyTrue && seen.anyFalse
  | not => !seen.anyTrue

/-! ## Reading inputs -/

section Reading

variable {m : Type → Type} [Monad m]

/-- Reads further inputs until the value is settled. -/
def runFrom (gate : Gate) (seen : Seen) : List (m Bool) → m Bool
  | [] => pure (gate.verdict seen)
  | input :: rest =>
    if gate.settled seen then pure (gate.verdict seen)
    else do
      let value ← input
      gate.runFrom (seen.add value) rest

/-- Runs the inputs from left to right until the value is settled. -/
def run (gate : Gate) (inputs : List (m Bool)) : m Bool := gate.runFrom {} inputs

/-- Without further inputs the value is that of the inputs read. -/
@[simp] theorem runFrom_nil (gate : Gate) (seen : Seen) :
    gate.runFrom seen ([] : List (m Bool)) = pure (gate.verdict seen) := rfl

/-- A settled gate reads nothing. -/
theorem runFrom_of_settled {gate : Gate} {seen : Seen} (hsettled : gate.settled seen = true)
    (inputs : List (m Bool)) : gate.runFrom seen inputs = pure (gate.verdict seen) := by
  cases inputs with
  | nil => rfl
  | cons input rest => rw [runFrom, if_pos hsettled]

/-- A gate that is not settled reads the next input. -/
theorem runFrom_cons {gate : Gate} {seen : Seen} (hunsettled : gate.settled seen = false)
    (input : m Bool) (rest : List (m Bool)) :
    gate.runFrom seen (input :: rest) =
      input >>= fun value => gate.runFrom (seen.add value) rest := by
  rw [runFrom, if_neg (by simp [hunsettled])]

end Reading

/-! ## Known inputs -/

/-- The value of a gate on inputs that are all known. -/
def apply (gate : Gate) (inputs : List Bool) : Bool :=
  Id.run (gate.run (inputs.map pure))

/-- An input that counts how often it is read. -/
def counted (value : Bool) : StateM Nat Bool := fun count => (value, count + 1)

/-- The value of a gate on known inputs, and how many of them it reads. -/
def applyCounted (gate : Gate) (inputs : List Bool) : Bool × Nat :=
  gate.run (inputs.map counted) 0

/-- Counting does not change the value, and no input is read twice. -/
theorem runFrom_counted (gate : Gate) (seen : Seen) (inputs : List Bool) (count : Nat) :
    (gate.runFrom seen (inputs.map counted) count).1
        = Id.run (gate.runFrom seen (inputs.map pure)) ∧
      (gate.runFrom seen (inputs.map counted) count).2 ≤ count + inputs.length := by
  induction inputs generalizing seen count with
  | nil => exact ⟨rfl, Nat.le_refl _⟩
  | cons value rest ih =>
    cases hsettled : gate.settled seen with
    | true =>
      rw [runFrom_of_settled hsettled, runFrom_of_settled hsettled]
      exact ⟨rfl, Nat.le_add_right _ _⟩
    | false =>
      rw [List.map_cons, List.map_cons, runFrom_cons hsettled, runFrom_cons hsettled]
      obtain ⟨hsame, hbound⟩ := ih (seen.add value) (count + 1)
      refine ⟨hsame, Nat.le_trans hbound ?_⟩
      simp only [List.length_cons]
      omega

/-- The value found while counting is the value. -/
theorem applyCounted_fst (gate : Gate) (inputs : List Bool) :
    (gate.applyCounted inputs).1 = gate.apply inputs :=
  (runFrom_counted gate {} inputs 0).1

/-- No more inputs are read than there are. -/
theorem applyCounted_snd_le (gate : Gate) (inputs : List Bool) :
    (gate.applyCounted inputs).2 ≤ inputs.length := by
  have hbound := (runFrom_counted gate {} inputs 0).2
  rwa [Nat.zero_add] at hbound

end Gate

end Clearance
