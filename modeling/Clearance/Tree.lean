import Clearance.Fault

/-!
# Permission trees

A tree joins constants and permissions by gates.  Each permission carries the checker that answers
for its type, so that a tree can be decided without the registry it was read with.  Two trees are
the same if they agree in all but their checkers.
-/

namespace Clearance

/-- A tree of gates over constants and permissions, with checkers of type `κ`. -/
inductive Tree (κ : Type)
  | constant (value : Bool)
  /-- A permission of a type, and the checker of that type. -/
  | permission (type value : String) (checker : κ)
  | gate (gate : Gate) (inputs : List (Tree κ))
  deriving Inhabited

namespace Tree

variable {κ : Type}

/-! ## Building -/

/-- A gate over inputs whose number it admits. -/
def ofGate (gate : Gate) (inputs : List (Tree κ)) : Except Fault (Tree κ) := do
  gate.checkCount inputs.length
  return .gate gate inputs

/-- Joins inputs by a gate; conjunction and disjunction of a single input are that input. -/
def join (gate : Gate) (inputs : List (Tree κ)) : Except Fault (Tree κ) := do
  gate.checkCount inputs.length
  match gate, inputs with
  | .and, [only] | .or, [only] => return only
  | gate, inputs => return .gate gate inputs

mutual

/-- Whether every gate admits the number of its inputs. -/
def wellFormed : Tree κ → Bool
  | constant _ | permission _ _ _ => true
  | gate g inputs => g.admits inputs.length && wellFormedEach inputs

/-- Whether every one of these trees is well formed. -/
def wellFormedEach : List (Tree κ) → Bool
  | [] => true
  | tree :: rest => wellFormed tree && wellFormedEach rest

end

/-! ## Size -/

mutual

/-- The number of nodes. -/
def size : Tree κ → Nat
  | constant _ | permission _ _ _ => 1
  | gate _ inputs => sizeEach inputs + 1

/-- The number of nodes of these trees together. -/
def sizeEach : List (Tree κ) → Nat
  | [] => 0
  | tree :: rest => size tree + sizeEach rest

end

/-! ## Sameness -/

mutual

/-- Whether two trees agree in all but their checkers. -/
def same : Tree κ → Tree κ → Bool
  | constant a, constant b => a == b
  | permission type value _, permission type' value' _ => type == type' && value == value'
  | gate g inputs, gate g' inputs' => g == g' && sameEach inputs inputs'
  | _, _ => false

/-- Whether two lists of trees agree one by one in all but their checkers. -/
def sameEach : List (Tree κ) → List (Tree κ) → Bool
  | [], [] => true
  | tree :: rest, tree' :: rest' => same tree tree' && sameEach rest rest'
  | _, _ => false

end

/-- A tree is the same as itself. -/
theorem same_refl (tree : Tree κ) : tree.same tree = true := by
  induction tree using Tree.rec (motive_2 := fun trees => sameEach trees trees = true) with
  | constant value => simp [same]
  | permission type value checker => simp [same]
  | gate g inputs ih => simp [same, ih]
  | nil => simp [sameEach]
  | cons tree rest hfirst hothers => simp [sameEach, hfirst, hothers]

/-- Sameness does not depend on the order of the trees. -/
theorem same_comm (a b : Tree κ) : a.same b = b.same a := by
  induction a, b using same.induct (motive_2 := fun as bs => sameEach as bs = sameEach bs as) with
  | case1 a b => simp [same, Bool.beq_comm]
  | case2 type value checker type' value' checker' => simp [same, Bool.beq_comm]
  | case3 g inputs g' inputs' ih => simp [same, ih, Bool.beq_comm]
  | case4 a b hconstant hpermission hgate =>
    cases a <;> cases b <;> grind [same]
  | case5 => rfl
  | case6 tree rest tree' rest' hfirst hothers => simp [sameEach, hfirst, hothers]
  | case7 as bs hnil hcons =>
    cases as <;> cases bs <;> grind [sameEach]

end Tree

/-! ## Guarded trees -/

/-- A tree that grants access, and the tree, if any, that decides whether the bypass is
suppressed. -/
structure GuardedTree (κ : Type) where
  main : Tree κ
  noBypass : Option (Tree κ) := none
  deriving Inhabited

namespace GuardedTree

variable {κ : Type}

/-- Whether two optional trees agree in all but their checkers. -/
def sameNoBypass : Option (Tree κ) → Option (Tree κ) → Bool
  | none, none => true
  | some a, some b => a.same b
  | _, _ => false

/-- Whether two guarded trees agree in all but their checkers. -/
def same (a b : GuardedTree κ) : Bool := a.main.same b.main && sameNoBypass a.noBypass b.noBypass

end GuardedTree

end Clearance
