import Clearance.Proofs.Induction
import Clearance.Tree.Evaluation

/-!
# Calls of checkers

Deciding a tree asks checkers one after the other.  To say which, the checkers of a tree are labelled
with their types, and every question is noted before it is asked.  Noting changes no answer, since
decisions preserve every relation that binds preserve.
-/

namespace Clearance

variable {κ : Type} {m n : Type → Type} [Monad m] [Monad n]

/-! ## Related decisions -/

/-- A relation between decisions that known values and binds preserve. -/
structure Simulates (R : m Bool → n Bool → Prop) : Prop where
  pure : ∀ b : Bool, R (pure b) (pure b)
  bind : ∀ x y (f : Bool → m Bool) (g : Bool → n Bool), R x y → (∀ b, R (f b) (g b)) →
    R (x >>= f) (y >>= g)

/-- Equality of decisions is such a relation. -/
theorem simulates_eq : Simulates (Eq : m Bool → m Bool → Prop) where
  pure _ := rfl
  bind x y f g hxy hfg := by rw [hxy, funext hfg]

/-- Gates over related inputs are related. -/
theorem Simulates.runFrom {R : m Bool → n Bool → Prop} (hR : Simulates R) (g : Gate)
    (seen : Gate.Seen) {xs : List (m Bool)} {ys : List (n Bool)} (h : List.Forall₂ R xs ys) :
    R (g.runFrom seen xs) (g.runFrom seen ys) := by
  induction h generalizing seen with
  | nil => exact hR.pure _
  | cons hxy _ ih =>
      cases hseen : g.settled seen with
      | true =>
          rw [Gate.runFrom_of_settled hseen, Gate.runFrom_of_settled hseen]
          exact hR.pure _
      | false =>
          rw [Gate.runFrom_cons hseen, Gate.runFrom_cons hseen]
          exact hR.bind _ _ _ _ hxy fun value => ih (seen.add value)

/-! ## Labels -/

namespace Tree

mutual

/-- The tree with every checker labelled with its type. -/
def labelled : Tree κ → Tree (String × κ)
  | constant value => constant value
  | permission type value checker => permission type value (type, checker)
  | gate g inputs => gate g (labelledEach inputs)

/-- These trees with every checker labelled with its type. -/
def labelledEach : List (Tree κ) → List (Tree (String × κ))
  | [] => []
  | tree :: rest => labelled tree :: labelledEach rest

end

/-- Trees are labelled each by itself. -/
theorem labelledEach_eq_map (trees : List (Tree κ)) : labelledEach trees = trees.map labelled := by
  induction trees with
  | nil => rfl
  | cons tree rest ih => rw [labelledEach, ih, List.map_cons]

/-- If asking with a label is related to asking without, so are the decisions on trees. -/
theorem eval_labelled_of_simulates {R : m Bool → n Bool → Prop} (hR : Simulates R)
    {ask : Asking (String × κ) m} {ask' : Asking κ n} {context : Json}
    (hask : ∀ type value checker, R (ask (type, checker) value context) (ask' checker value context))
    (tree : Tree κ) : R (tree.labelled.eval ask context) (tree.eval ask' context) := by
  induction tree using Tree.induction with
  | constant value => exact hR.pure value
  | permission type value checker => exact hask type value checker
  | gate g inputs ih =>
      rw [labelled, eval, eval, evalEach_eq_map, evalEach_eq_map, labelledEach_eq_map, List.map_map]
      refine hR.runFrom g {} ?_
      rw [List.forall₂_map_left_iff, List.forall₂_map_right_iff, List.forall₂_same]
      exact ih

/-- Who does not look at the labels decides a labelled tree as the tree itself. -/
theorem eval_labelled (ask : Asking κ m) (context : Json) (tree : Tree κ) :
    tree.labelled.eval (fun labelled => ask labelled.2) context = tree.eval ask context :=
  eval_labelled_of_simulates simulates_eq (fun _ _ _ => rfl) tree

end Tree

/-! ## Notes -/

/-- The type and the value of each permission asked for, the first one first. -/
abbrev Calls : Type := List (String × String)

/-- Adds a call to the notes, and then asks. -/
def noting (type value : String) (answer : m Bool) : StateT Calls m Bool := do
  modify fun calls => calls ++ [(type, value)]
  answer

/-- The decision on a tree, together with the calls that it makes. -/
def Tree.evalNoting (ask : Asking κ m) (context : Json) (tree : Tree κ) : StateT Calls m Bool :=
  tree.labelled.eval
    (fun labelled value context => noting labelled.1 value (ask labelled.2 value context)) context

/-- The calls noted do not change the answer. -/
theorem Tree.fst_evalNoting [LawfulMonad m] (ask : Asking κ m) (context : Json) (tree : Tree κ)
    (calls : Calls) :
    Prod.fst <$> (tree.evalNoting ask context).run calls = tree.eval ask context := by
  -- the notes grow from one bind to the next, so the relation leaves them open
  have hforget : Simulates fun (x : StateT Calls m Bool) (y : m Bool) =>
      ∀ calls, Prod.fst <$> x.run calls = y := by
    constructor
    · intro b calls
      simp
    · intro x y f g hxy hfg calls
      rw [StateT.run_bind, map_bind]
      have hrest : (fun noted : Bool × Calls => Prod.fst <$> (f noted.1).run noted.2)
          = fun noted => g noted.1 := by
        funext noted
        exact hfg noted.1 noted.2
      rw [hrest, ← hxy calls, bind_map_left]
  refine eval_labelled_of_simulates hforget ?_ tree calls
  intro type value checker calls
  simp [noting]

end Clearance
