import Clearance.Proofs.Meaning
import Clearance.Proofs.RoundTrip

/-!
# Gates of a single input

A conjunction or disjunction of a single input is decided as that input.  A tree that is put
together by hand may have such gates, also in chains, while a tree that is read has none: reading
the written form of a tree leaves them out at all levels, and changes no decision and no call.
-/

namespace Clearance

variable {κ : Type}

namespace Tree

/-! ## Leaving gates out -/

mutual

/-- The tree in which every conjunction and every disjunction of a single input, at any level, is
replaced by its input. -/
def collapsed : Tree κ → Tree κ
  | constant value => constant value
  | permission type value checker => permission type value checker
  | gate .and [only] => collapsed only
  | gate .or [only] => collapsed only
  | gate g inputs => gate g (collapsedEach inputs)

/-- The same for each of these trees. -/
def collapsedEach : List (Tree κ) → List (Tree κ)
  | [] => []
  | tree :: rest => collapsed tree :: collapsedEach rest

end

/-- Trees are collapsed each by itself. -/
theorem collapsedEach_eq_map (trees : List (Tree κ)) :
    collapsedEach trees = trees.map collapsed := by
  induction trees with
  | nil => rfl
  | cons tree rest ih => rw [collapsedEach, ih, List.map_cons]

/-- A gate is left out exactly where joining leaves it out. -/
theorem collapsed_gate (g : Gate) (inputs : List (Tree κ)) :
    (gate g inputs).collapsed = joined g (inputs.map collapsed) := by
  rcases joined_cases g inputs with hcompact | ⟨hg, only, rfl⟩
  · rw [joined_eq_gate (by rwa [List.length_map]), collapsed, collapsedEach_eq_map]
    · rintro only rfl rfl
      exact hcompact (Or.inl rfl) rfl
    · rintro only rfl rfl
      exact hcompact (Or.inr rfl) rfl
  · rw [List.map_singleton, joined_singleton hg]
    rcases hg with rfl | rfl <;> rw [collapsed]

/-- No conjunction or disjunction of a single input is left. -/
theorem compact_collapsed (tree : Tree κ) : tree.collapsed.Compact := by
  induction tree using Tree.induction with
  | constant value => exact forall_mem_nodes_constant.2 trivial
  | permission type value checker => exact forall_mem_nodes_permission.2 trivial
  | gate g inputs ih =>
      rw [collapsed_gate]
      rcases joined_cases g (inputs.map collapsed) with hcompact | ⟨hg, only, hinputs⟩
      · rw [joined_eq_gate hcompact]
        exact forall_mem_nodes_gate.2 ⟨hcompact, List.forall_mem_map.2 ih⟩
      · have honly : only ∈ inputs.map collapsed := by simp [hinputs]
        obtain ⟨input, hinput, rfl⟩ := List.mem_map.1 honly
        rw [hinputs, joined_singleton hg]
        exact ih input hinput

/-- A tree with the checkers of the registry is read again as the tree without these gates. -/
theorem reread_eq_collapsed {registry : Registry κ} {tree : Tree κ} (hbound : tree.Bound registry) :
    tree.reread registry = tree.collapsed := by
  induction tree using Tree.induction with
  | constant value => rw [reread, collapsed]
  | permission type value checker =>
      have hget : registry.get? type = some checker := forall_mem_nodes_permission.1 hbound
      rw [reread, collapsed, hget, Option.getD_some]
  | gate g inputs ih =>
      have hbounds := (forall_mem_nodes_gate.1 hbound).2
      rw [reread, rereadEach_eq_map, collapsed_gate,
        List.map_congr_left fun input hinput => ih input hinput (hbounds input hinput)]

/-! ## Decisions -/

section Decisions

variable {m : Type → Type} [Monad m] [LawfulMonad m]

/-- The gates that are left out change no decision. -/
theorem eval_collapsed {tree : Tree κ} (hwf : tree.wellFormed = true) (ask : Asking κ m)
    (context : Json) : tree.collapsed.eval ask context = tree.eval ask context := by
  induction tree using Tree.induction with
  | constant value => rw [collapsed]
  | permission type value checker => rw [collapsed]
  | gate g inputs ih =>
      rw [wellFormed_gate_iff] at hwf
      have hinputs : (inputs.map collapsed).map (eval ask context) =
          inputs.map (eval ask context) := by
        rw [List.map_map]
        exact List.map_congr_left fun input hinput => ih input hinput (hwf.2 input hinput)
      rw [collapsed_gate, eval_joined (by simpa using hwf.1), hinputs, eval, evalEach_eq_map,
        Gate.run_eq_loop (by simpa using hwf.1)]

/-- Labels stay with their checkers. -/
theorem labelled_collapsed (tree : Tree κ) : tree.collapsed.labelled = tree.labelled.collapsed := by
  induction tree using Tree.induction with
  | constant value => simp only [collapsed, labelled]
  | permission type value checker => simp only [collapsed, labelled]
  | gate g inputs ih =>
      rw [collapsed_gate, labelled_joined, labelled, labelledEach_eq_map, collapsed_gate,
        List.map_map, List.map_map]
      exact congrArg _ (List.map_congr_left ih)

/-- A labelled tree has as many inputs as before. -/
theorem wellFormed_labelled {tree : Tree κ} (hwf : tree.wellFormed = true) :
    tree.labelled.wellFormed = true := by
  induction tree using Tree.induction with
  | constant value => rfl
  | permission type value checker => rfl
  | gate g inputs ih =>
      rw [wellFormed_gate_iff] at hwf
      rw [labelled, labelledEach_eq_map, wellFormed_gate_iff, List.length_map, List.forall_mem_map]
      exact ⟨hwf.1, fun input hinput => ih input hinput (hwf.2 input hinput)⟩

/-- The gates that are left out change no call, and not the order of the calls. -/
theorem evalNoting_collapsed {tree : Tree κ} (hwf : tree.wellFormed = true) (ask : Asking κ m)
    (context : Json) : tree.collapsed.evalNoting ask context = tree.evalNoting ask context := by
  rw [evalNoting, labelled_collapsed, eval_collapsed (wellFormed_labelled hwf)]
  rfl

end Decisions

end Tree

/-! ## Reading again -/

namespace Expression

/-- **Reading a tree again keeps its behaviour.**  Let the permissions of a tree have registered
types, with the checkers of the registry, and texts that can be permissions, and let its gates admit
their numbers of inputs.  Unless the written form is too deep it is accepted, as the tree without
conjunctions and disjunctions of a single input; and that tree is decided like the first one in
every context and by all checkers, also by such that keep state, with the same calls in the same
order. -/
theorem rereading_changes_no_decision {registry : Registry κ} {tree : Tree κ}
    (hwf : tree.wellFormed = true) (hreadable : tree.Readable registry)
    (hbound : tree.Bound registry) (hnesting : tree.toJson.nesting ≤ nestingLimit) :
    read registry tree.toJson = .ok tree.collapsed ∧ tree.collapsed.Compact ∧
      ∀ {m : Type → Type} [Monad m] [LawfulMonad m] (ask : Asking κ m) (context : Json),
        tree.collapsed.eval ask context = tree.eval ask context ∧
          tree.collapsed.evalNoting ask context = tree.evalNoting ask context := by
  refine ⟨?_, Tree.compact_collapsed tree, ?_⟩
  · rw [read_toJson hreadable hwf, if_pos hnesting, Tree.reread_eq_collapsed hbound]
  · intro m _ _ ask context
    exact ⟨Tree.eval_collapsed hwf ask context, Tree.evalNoting_collapsed hwf ask context⟩

/-- A role below a chain of four gates that can be left out, beside a negated one: both trees ask
for the same two roles, the second of which is granted by turns. -/
theorem rereading_changes_no_decision_chain :
    let a := Tree.permission "role" "a" ()
    let b := Tree.permission "role" "b" ()
    let tree := Tree.gate .or [.gate .and [.gate .or [.gate .and [.gate .or [a]]]],
      .gate .not [.gate .and [b]]]
    tree.wellFormed = true ∧ tree.Readable Registry.roles ∧ tree.Bound Registry.roles ∧
      tree.toJson.nesting ≤ nestingLimit ∧
      read Registry.roles tree.toJson = .ok (.gate .or [a, .gate .not [b]]) ∧
      ((Tree.gate .or [a, .gate .not [b]]).evalNoting byTurns .null).run [] 0 =
        (tree.evalNoting byTurns .null).run [] 0 ∧
      (tree.evalNoting byTurns .null).run [] 0 = ((false, [("role", "a"), ("role", "b")]), 2) := by
  intro a b tree
  have hwf : tree.wellFormed = true := rfl
  have hreadable : tree.Readable Registry.roles := by
    have hhas : Registry.roles.has "role" = true := rfl
    have htexts : IsPermissionText "a" ∧ IsPermissionText "b" := by decide
    simp [tree, a, b, Tree.Readable, Tree.nodes, Tree.nodesEach, Tree.ReadableNode, hhas, htexts]
  have hbound : tree.Bound Registry.roles := by
    have hget : Registry.roles.get? "role" = some () := rfl
    simp [tree, a, b, Tree.Bound, Tree.nodes, Tree.nodesEach, Tree.BoundNode, hget]
  have hnesting : tree.toJson.nesting ≤ nestingLimit := by decide
  have hagain := rereading_changes_no_decision hwf hreadable hbound hnesting
  have hnoting := (hagain.2.2 byTurns .null).2
  have hcollapsed : tree.collapsed = .gate .or [a, .gate .not [b]] := rfl
  rw [hcollapsed] at hagain hnoting
  exact ⟨hwf, hreadable, hbound, hnesting, hagain.1, by rw [hnoting], rfl⟩

end Expression

end Clearance
