import Clearance.Gate
import Mathlib.Tactic.Common

/-!
# Gates as loops

What each gate does with its inputs, said of the gate by itself: how many it admits, which values it
waits for, and what it makes of them.  Inputs are actions, so that a loop also says which inputs are
read, and in which order.
-/

namespace Clearance

namespace Gate

/-! ## Numbers of inputs -/

/-- A gate admits the numbers from its least to its largest. -/
theorem admits_iff {g : Gate} {count : Nat} :
    g.admits count = true ↔ g.minInputs ≤ count ∧ ∀ limit ∈ g.maxInputs, count ≤ limit := by
  rw [admits, Bool.and_eq_true, decide_eq_true_iff, Option.all_eq_true]
  simp only [decide_eq_true_iff, Option.mem_def]

/-- Any number of inputs but none can be joined by a disjunction. -/
@[simp] theorem admits_or_iff {count : Nat} : admits .or count = true ↔ 1 ≤ count := by
  simp [admits_iff, minInputs, maxInputs]

/-- A negation has exactly one input. -/
@[simp] theorem admits_not_iff {count : Nat} : admits .not count = true ↔ count = 1 := by
  simp [admits_iff, minInputs, maxInputs]
  omega

/-! ## Loops -/

variable {m : Type → Type} [Monad m]

/-- Reads inputs up to the first that is true, and finds whether there is one. -/
def untilTrue : List (m Bool) → m Bool
  | [] => pure false
  | input :: rest => do if ← input then return true else untilTrue rest

/-- Reads inputs up to the first that is false, and finds whether there is none. -/
def untilFalse : List (m Bool) → m Bool
  | [] => pure true
  | input :: rest => do if ← input then untilFalse rest else return false

/-- Reads inputs until both a true and a false one were seen, and finds whether both were. -/
def untilBoth (seenTrue seenFalse : Bool) : List (m Bool) → m Bool
  | [] => pure (seenTrue && seenFalse)
  | input :: rest =>
    if seenTrue && seenFalse then pure true
    else do
      let value ← input
      untilBoth (seenTrue || value) (seenFalse || !value) rest

/-- Reads a single input, and finds the opposite. -/
def opposite : List (m Bool) → m Bool
  | [input] => return !(← input)
  | _ => pure false

/-- The loop of a gate. -/
def loop : Gate → List (m Bool) → m Bool
  | and, inputs => untilFalse inputs
  | nand, inputs => return !(← untilFalse inputs)
  | or, inputs => untilTrue inputs
  | nor, inputs => return !(← untilTrue inputs)
  | xor, inputs => untilBoth false false inputs
  | not, inputs => opposite inputs

/-! ## Gates run their loops -/

/-- A conjunction that has seen nothing false runs its loop. -/
theorem runFrom_and {seen : Seen} (hseen : seen.anyFalse = false) (inputs : List (m Bool)) :
    runFrom .and seen inputs = untilFalse inputs := by
  induction inputs generalizing seen with
  | nil => simp [untilFalse, verdict, hseen]
  | cons input rest ih =>
      have hunsettled : settled .and seen = false := hseen
      rw [runFrom_cons hunsettled, untilFalse]
      congr 1
      funext value
      cases value with
      | true => exact ih hseen
      | false => exact runFrom_of_settled rfl rest

/-- A disjunction that has seen nothing true runs its loop. -/
theorem runFrom_or {seen : Seen} (hseen : seen.anyTrue = false) (inputs : List (m Bool)) :
    runFrom .or seen inputs = untilTrue inputs := by
  induction inputs generalizing seen with
  | nil => simp [untilTrue, verdict, hseen]
  | cons input rest ih =>
      have hunsettled : settled .or seen = false := hseen
      rw [runFrom_cons hunsettled, untilTrue]
      congr 1
      funext value
      cases value with
      | true => exact runFrom_of_settled rfl rest
      | false => exact ih hseen

/-- An exclusion runs its loop. -/
theorem runFrom_xor (seen : Seen) (inputs : List (m Bool)) :
    runFrom .xor seen inputs = untilBoth seen.anyTrue seen.anyFalse inputs := by
  induction inputs generalizing seen with
  | nil => rfl
  | cons input rest ih =>
      have hboth : (seen.anyTrue && seen.anyFalse) = settled .xor seen := rfl
      rw [untilBoth, hboth]
      cases hseen : settled .xor seen with
      | true =>
          rw [runFrom_of_settled hseen, if_pos rfl]
          exact congrArg pure hseen
      | false =>
          rw [runFrom_cons hseen, if_neg Bool.false_ne_true]
          congr 1
          funext value
          rw [ih]
          cases value <;> simp [Seen.add]

section Lawful

variable [LawfulMonad m]

/-- Whether an input is true is the input itself. -/
theorem bind_ite (input : m Bool) :
    (input >>= fun value => if value = true then pure true else pure false) = input := by
  have hvalue : (fun value : Bool => if value = true then (pure true : m Bool) else pure false)
      = pure := by
    funext value
    cases value <;> rfl
  rw [hvalue, bind_pure]

/-- A disjunction of one input is that input. -/
@[simp] theorem untilTrue_singleton (input : m Bool) : untilTrue [input] = input := bind_ite input

/-- A conjunction of one input is that input. -/
@[simp] theorem untilFalse_singleton (input : m Bool) : untilFalse [input] = input := bind_ite input

/-- A gate that settles with another, with the opposite value, finds the opposite. -/
theorem runFrom_opposite (g g' : Gate) (hsettled : ∀ seen, g'.settled seen = g.settled seen)
    (hverdict : ∀ seen, g'.verdict seen = !g.verdict seen) (seen : Seen) (inputs : List (m Bool)) :
    runFrom g' seen inputs = do return !(← runFrom g seen inputs) := by
  induction inputs generalizing seen with
  | nil => simp [hverdict]
  | cons input rest ih =>
      cases hseen : g.settled seen with
      | true =>
          rw [runFrom_of_settled hseen, runFrom_of_settled ((hsettled seen).trans hseen), hverdict]
          simp
      | false =>
          rw [runFrom_cons hseen, runFrom_cons ((hsettled seen).trans hseen), bind_assoc]
          congr 1
          funext value
          exact ih (seen.add value)

/-- A gate over as many inputs as it admits runs its loop. -/
theorem run_eq_loop {g : Gate} {inputs : List (m Bool)} (hadmits : g.admits inputs.length = true) :
    g.run inputs = g.loop inputs := by
  cases g with
  | and => exact runFrom_and rfl inputs
  | or => exact runFrom_or rfl inputs
  | xor => exact runFrom_xor {} inputs
  | nand =>
      rw [run, loop, runFrom_opposite .and .nand (fun _ => rfl) (fun seen => by simp [verdict]),
        runFrom_and rfl]
  | nor =>
      rw [run, loop, runFrom_opposite .or .nor (fun _ => rfl) (fun _ => rfl), runFrom_or rfl]
  | not =>
      -- over more inputs a negation would read the first and its loop none
      obtain ⟨input, rfl⟩ : ∃ input, inputs = [input] := by
        rw [← List.length_eq_one_iff]
        exact admits_not_iff.1 hadmits
      rw [run, loop, opposite, runFrom_cons rfl]
      congr 1
      funext value
      cases value <;> rfl

end Lawful

/-! ## Known inputs -/

/-- Among known inputs the loop for a true one finds whether there is one. -/
theorem untilTrue_known (values : List Bool) :
    Id.run (untilTrue (values.map pure)) = values.any id := by
  induction values with
  | nil => rfl
  | cons value rest ih =>
      cases value with
      | true => rfl
      | false => exact ih

/-- Among known inputs the loop for a false one finds whether there is none. -/
theorem untilFalse_known (values : List Bool) :
    Id.run (untilFalse (values.map pure)) = values.all id := by
  induction values with
  | nil => rfl
  | cons value rest ih =>
      cases value with
      | true => exact ih
      | false => rfl

/-- Among known inputs the loop for a true and a false one finds whether there are both. -/
theorem untilBoth_known (seenTrue seenFalse : Bool) (values : List Bool) :
    Id.run (untilBoth seenTrue seenFalse (values.map pure)) =
      ((seenTrue || values.any id) && (seenFalse || values.any (!·))) := by
  induction values generalizing seenTrue seenFalse with
  | nil => simp [untilBoth]
  | cons value rest ih =>
      show Id.run (if (seenTrue && seenFalse) = true then pure true
        else untilBoth (seenTrue || value) (seenFalse || !value) (rest.map pure)) = _
      split
      · simp_all
      · rw [ih, List.any_cons, List.any_cons, Bool.or_assoc, Bool.or_assoc]
        rfl

/-- What a gate makes of known inputs does not depend on their order. -/
theorem loop_perm (g : Gate) {values values' : List Bool} (h : values.Perm values') :
    Id.run (g.loop (values.map pure)) = Id.run (g.loop (values'.map pure)) := by
  have hany : ∀ p : Bool → Bool, values.any p = values'.any p := fun p => h.any_eq
  have hall : values.all id = values'.all id := h.all_eq
  cases g with
  | and => rw [loop, loop, untilFalse_known, untilFalse_known, hall]
  | nand =>
      show (!Id.run (untilFalse (values.map pure))) = !Id.run (untilFalse (values'.map pure))
      rw [untilFalse_known, untilFalse_known, hall]
  | or => rw [loop, loop, untilTrue_known, untilTrue_known, hany]
  | nor =>
      show (!Id.run (untilTrue (values.map pure))) = !Id.run (untilTrue (values'.map pure))
      rw [untilTrue_known, untilTrue_known, hany]
  | xor => rw [loop, loop, untilBoth_known, untilBoth_known, hany, hany]
  | not =>
      rcases values with - | ⟨value, - | ⟨second, rest⟩⟩
      · rw [List.nil_perm.1 h]
      · rw [List.singleton_perm.1 h]
      · -- over more than one input the loop of a negation reads none
        rcases values' with - | ⟨value', - | ⟨second', rest'⟩⟩
        · simpa using h.length_eq
        · simpa using h.length_eq
        · rfl

end Gate

end Clearance
