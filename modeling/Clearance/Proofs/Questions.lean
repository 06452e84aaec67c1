import Clearance.Proofs.Decisions
import Mathlib.Data.List.Flatten

/-!
# Questions to an application

Which questions a decision asks of an application, in which order.  An application whose answers
depend on the question alone is given a notebook; a trace then asks for every permission of its tree
once, and a decision asks for some of them, in the same order.
-/

namespace Clearance

variable {κ β : Type}

/-! ## Notes -/

/-- A question to an application: whether a checker grants a permission in a context, or whether a
bypass checker grants access in it. -/
inductive Question (κ β : Type)
  | permission (checker : κ) (value : String) (context : Json)
  | bypass (checker : β) (context : Json)

/-- The application that notes every question, the last one last, and then answers it. -/
def Host.noting {m : Type → Type} [Monad m] (host : Host κ β m) :
    Host κ β (StateT (List (Question κ β)) m) where
  ask checker value context := do
    modify fun noted => noted ++ [.permission checker value context]
    host.ask checker value context
  askBypass checker context := do
    modify fun noted => noted ++ [.bypass checker context]
    host.askBypass checker context

/-- A decision comes to a result after these questions, whatever has been noted before. -/
def Asks {α : Type} (decision : StateM (List (Question κ β)) α) (result : α)
    (asked : List (Question κ β)) : Prop :=
  ∀ noted, decision.run noted = (result, noted ++ asked)

/-- What is known needs no question. -/
theorem asks_pure {α : Type} (a : α) :
    Asks (pure a : StateM (List (Question κ β)) α) a [] := by
  intro noted
  rw [List.append_nil]
  rfl

/-- The questions of the first decision come before those of the second. -/
theorem Asks.bind {α γ : Type} {x : StateM (List (Question κ β)) α} {a : α}
    {f : α → StateM (List (Question κ β)) γ} {c : γ} {first second : List (Question κ β)}
    (hx : Asks x a first) (hf : Asks (f a) c second) : Asks (x >>= f) c (first ++ second) := by
  intro noted
  rw [StateT.run_bind, hx]
  show (f a).run (noted ++ first) = _
  rw [hf, List.append_assoc]

/-- What is made of a result needs no further question. -/
theorem Asks.map {α γ : Type} {x : StateM (List (Question κ β)) α} {a : α}
    {asked : List (Question κ β)} (hx : Asks x a asked) (f : α → γ) :
    Asks (x >>= fun a => pure (f a)) (f a) asked := by
  have hmap : Asks (x >>= fun a => pure (f a)) (f a) (asked ++ []) := hx.bind (asks_pure (f a))
  rwa [List.append_nil] at hmap

/-! ## Trees -/

section Trees

variable (host : Host κ β Id) (context : Json)

/-- A checker is asked the one question. -/
theorem asks_ask (checker : κ) (value : String) :
    Asks (host.noting.ask checker value context) (host.ask checker value context)
      [.permission checker value context] :=
  fun _ => rfl

/-- A bypass checker is asked the one question. -/
theorem asks_askBypass (checker : β) :
    Asks (host.noting.askBypass checker context) (host.askBypass checker context)
      [.bypass checker context] :=
  fun _ => rfl

namespace Tree

mutual

/-- The question for each permission of a tree, from left to right. -/
def questions (context : Json) : Tree κ → List (Question κ β)
  | constant _ => []
  | permission _ value checker => [.permission checker value context]
  | gate _ inputs => questionsEach context inputs

/-- The questions for the permissions of trees, from left to right. -/
def questionsEach (context : Json) : List (Tree κ) → List (Question κ β)
  | [] => []
  | tree :: rest => questions context tree ++ questionsEach context rest

end

/-- The questions for trees are those for each. -/
theorem questionsEach_eq_flatMap (trees : List (Tree κ)) :
    questionsEach (β := β) context trees = trees.flatMap (questions context) := by
  induction trees with
  | nil => rfl
  | cons tree rest ih => rw [questionsEach, ih, List.flatMap_cons]

/-- No bypass checker is asked for a tree. -/
theorem bypass_not_mem_questions (checker : β) (asked : Json) (tree : Tree κ) :
    Question.bypass checker asked ∉ tree.questions context := by
  induction tree using Tree.induction with
  | constant value => simp [questions]
  | permission type value checker => simp [questions]
  | gate g inputs ih =>
      rw [questions, questionsEach_eq_flatMap, List.mem_flatMap]
      rintro ⟨input, hinput, hasked⟩
      exact ih input hinput hasked

/-- Traces ask for trees one after the other. -/
theorem asks_traceEach {trees : List (Tree κ)}
    (h : ∀ tree ∈ trees, Asks (tree.trace host.noting.ask context)
      (tree.trace host.ask context : Trace) (tree.questions context)) :
    Asks (traceEach host.noting.ask context trees) (traceEach host.ask context trees : List Trace)
      (questionsEach context trees) := by
  induction trees with
  | nil => exact asks_pure []
  | cons tree rest ih =>
      rw [List.forall_mem_cons] at h
      exact h.1.bind ((ih h.2).map _)

/-- A trace asks every question for its tree. -/
theorem asks_trace (tree : Tree κ) :
    Asks (tree.trace host.noting.ask context) (tree.trace host.ask context : Trace)
      (tree.questions context) := by
  induction tree using Tree.induction with
  | constant value => exact asks_pure _
  | permission type value checker => exact (asks_ask host context checker value).map _
  | gate g inputs ih => exact (asks_traceEach host context ih).map _

end Tree

/-- A gate asks some of the questions for its inputs, if each input does. -/
theorem exists_asks_runFrom (g : Gate) (seen : Gate.Seen)
    {inputs : List (StateM (List (Question κ β)) Bool)}
    {known : List (Bool × List (Question κ β))}
    (h : List.Forall₂ (fun input answer => ∃ asked, asked.Sublist answer.2 ∧
      Asks input answer.1 asked) inputs known) :
    ∃ asked, asked.Sublist (known.flatMap Prod.snd) ∧
      Asks (g.runFrom seen inputs)
        (Id.run (g.runFrom seen (known.map fun answer => pure answer.1))) asked := by
  induction h generalizing seen with
  | nil => exact ⟨[], List.nil_sublist _, asks_pure _⟩
  | @cons input answer inputs known hinput _ ih =>
      rw [List.map_cons, List.flatMap_cons]
      -- a settled gate asks nothing more, and nothing is a part of any questions
      cases hseen : g.settled seen with
      | true =>
          rw [Gate.runFrom_of_settled hseen, Gate.runFrom_of_settled hseen]
          exact ⟨[], List.nil_sublist _, asks_pure _⟩
      | false =>
          obtain ⟨first, hfirst, hasks⟩ := hinput
          obtain ⟨rest, hrest, hasksRest⟩ := ih (seen.add answer.1)
          rw [Gate.runFrom_cons hseen, Gate.runFrom_cons hseen]
          exact ⟨first ++ rest, hfirst.append hrest, hasks.bind hasksRest⟩

/-- A decision asks some of the questions for its tree, in their order. -/
theorem Tree.exists_asks_eval (tree : Tree κ) :
    ∃ asked, asked.Sublist (tree.questions context) ∧
      Asks (tree.eval host.noting.ask context) (tree.eval host.ask context : Bool) asked := by
  induction tree using Tree.induction with
  | constant value => exact ⟨[], List.nil_sublist _, asks_pure _⟩
  | permission type value checker =>
      exact ⟨_, List.Sublist.refl _, asks_ask host context checker value⟩
  | gate g inputs ih =>
      have hinputs : List.Forall₂ (fun input answer => ∃ asked, asked.Sublist answer.2 ∧
          Asks input answer.1 asked) (inputs.map (Tree.eval host.noting.ask context))
          (inputs.map fun input => ((input.eval host.ask context : Bool),
            input.questions context)) := by
        rw [List.forall₂_map_left_iff, List.forall₂_map_right_iff, List.forall₂_same]
        exact ih
      obtain ⟨asked, hasked, hasks⟩ := exists_asks_runFrom g {} hinputs
      refine ⟨asked, ?_, ?_⟩
      · rw [List.flatMap_map] at hasked
        rwa [Tree.questions, Tree.questionsEach_eq_flatMap]
      · rw [Tree.eval, Tree.eval, Tree.evalEach_eq_map, Tree.evalEach_eq_map]
        rwa [List.map_map] at hasks

end Trees

end Clearance
