import Clearance.Tree.Printer

/-!
# Deciding trees

A tree is decided by asking the checkers of its permissions.  Asking is an action, so that checkers
may keep state and calls can be observed: `Tree.eval` asks only where the answer can still matter,
`Tree.trace` asks everywhere and records the value of every node.
-/

namespace Clearance

/-- How a checker answers for a permission in a context. -/
abbrev Asking (κ : Type) (m : Type → Type) : Type := κ → String → Json → m Bool

namespace Tree

variable {κ : Type} {m : Type → Type} [Monad m]

/-! ## Lazily -/

mutual

/-- The value of a tree, every gate reading its inputs only until its value is settled. -/
def eval (ask : Asking κ m) (context : Json) : Tree κ → m Bool
  | constant value => pure value
  | permission _ value checker => ask checker value context
  | gate g inputs => g.run (evalEach ask context inputs)

/-- The actions that decide these trees. -/
def evalEach (ask : Asking κ m) (context : Json) : List (Tree κ) → List (m Bool)
  | [] => []
  | tree :: rest => eval ask context tree :: evalEach ask context rest

end

/-- The inputs of a gate are decided each by itself. -/
theorem evalEach_eq_map (ask : Asking κ m) (context : Json) (trees : List (Tree κ)) :
    evalEach ask context trees = trees.map (eval ask context) := by
  induction trees with
  | nil => rfl
  | cons tree rest ih => rw [evalEach, ih, List.map_cons]

/-! ## In full -/

/-- What is recorded of a node: its value and its written form. -/
structure Record where
  value : Bool
  permissions : Json
  deriving Inhabited

/-- The value of a tree and the records of all its nodes, each node before its inputs. -/
structure Trace where
  value : Bool
  records : List Record
  deriving Inhabited

/-- The trace of a node that has just been decided. -/
def Trace.ofNode (tree : Tree κ) (value : Bool) (below : List Record) : Trace :=
  ⟨value, ⟨value, tree.toJson⟩ :: below⟩

mutual

/-- Decides every node of a tree, from left to right. -/
def trace (ask : Asking κ m) (context : Json) : Tree κ → m Trace
  | constant value => return .ofNode (constant value : Tree κ) value []
  | permission type value checker => do
    let answer ← ask checker value context
    return .ofNode (permission type value checker) answer []
  | gate g inputs => do
    let traces ← traceEach ask context inputs
    return .ofNode (gate g inputs) (g.apply (traces.map (·.value)))
      (traces.flatMap (·.records))

/-- The traces of these trees, from left to right. -/
def traceEach (ask : Asking κ m) (context : Json) : List (Tree κ) → m (List Trace)
  | [] => return []
  | tree :: rest => do
    let first ← trace ask context tree
    return first :: (← traceEach ask context rest)

end

/-! ## After earlier records -/

/-- Keeps a place for a node behind the records so far, decides the node, which puts the records of
its inputs behind that place, and then fills the place in. -/
def recordAround (tree : Tree κ) (decision : StateT (List Record) m Bool) :
    StateT (List Record) m Bool := do
  let place := (← get).length
  modify fun records => records ++ [⟨false, tree.toJson⟩]
  let value ← decision
  modify fun records => records.modify place fun record => { record with value }
  return value

mutual

/-- Decides every node of a tree, from left to right, and puts the records behind those so far. -/
def traceOnto (ask : Asking κ m) (context : Json) : Tree κ → StateT (List Record) m Bool
  | constant value => recordAround (constant value : Tree κ) (pure value)
  | permission type value checker =>
    recordAround (permission type value checker) (liftM (ask checker value context))
  | gate g inputs => recordAround (gate g inputs) do
    return g.apply (← traceEachOnto ask context inputs)

/-- Decides every node of these trees, from left to right, and puts the records behind those so
far. -/
def traceEachOnto (ask : Asking κ m) (context : Json) :
    List (Tree κ) → StateT (List Record) m (List Bool)
  | [] => return []
  | tree :: rest => do
    let first ← traceOnto ask context tree
    return first :: (← traceEachOnto ask context rest)

end

end Tree

end Clearance
