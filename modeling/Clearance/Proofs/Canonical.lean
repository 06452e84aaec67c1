import Clearance.Proofs.Reader

/-!
# Canonical trees

The trees that reading gives: every permission has a registered type, a text that can be a
permission and the checker of its type, and no conjunction or disjunction has a single input.
-/

namespace Clearance

variable {κ : Type}

namespace Tree

/-! ## Nodes -/

mutual

/-- The nodes of a tree, each before its inputs. -/
def nodes : Tree κ → List (Tree κ)
  | constant value => [constant value]
  | permission type value checker => [permission type value checker]
  | gate g inputs => gate g inputs :: nodesEach inputs

/-- The nodes of trees, from left to right. -/
def nodesEach : List (Tree κ) → List (Tree κ)
  | [] => []
  | tree :: rest => nodes tree ++ nodesEach rest

end

/-- The nodes of trees are those of each. -/
theorem nodesEach_eq_flatMap (trees : List (Tree κ)) : nodesEach trees = trees.flatMap nodes := by
  induction trees with
  | nil => rfl
  | cons tree rest ih => rw [nodesEach, ih, List.flatMap_cons]

/-- A property holds at all nodes of a constant if it holds at the constant. -/
theorem forall_mem_nodes_constant {P : Tree κ → Prop} {value : Bool} :
    (∀ node ∈ (constant value : Tree κ).nodes, P node) ↔ P (constant value) := by
  rw [nodes, List.forall_mem_singleton]

/-- A property holds at all nodes of a permission if it holds at the permission. -/
theorem forall_mem_nodes_permission {P : Tree κ → Prop} {type value : String} {checker : κ} :
    (∀ node ∈ (permission type value checker).nodes, P node) ↔
      P (permission type value checker) := by
  rw [nodes, List.forall_mem_singleton]

/-- A property holds at all nodes of a gate if it holds at the gate and at all nodes of its
inputs. -/
theorem forall_mem_nodes_gate {P : Tree κ → Prop} {g : Gate} {inputs : List (Tree κ)} :
    (∀ node ∈ (gate g inputs).nodes, P node) ↔
      P (gate g inputs) ∧ ∀ input ∈ inputs, ∀ node ∈ input.nodes, P node := by
  rw [nodes, List.forall_mem_cons, nodesEach_eq_flatMap]
  simp only [List.mem_flatMap, forall_exists_index, and_imp]
  exact and_congr_right fun _ => ⟨fun h input hinput node hnode => h node input hinput hnode,
    fun h node input hinput hnode => h input hinput node hnode⟩

/-! ## Trees that can be read back -/

/-- A permission can be read back if its type is registered and its text can be a permission. -/
def ReadableNode (registry : Registry κ) : Tree κ → Prop
  | permission type value _ => registry.has type = true ∧ IsPermissionText value
  | constant _ | gate _ _ => True

/-- A conjunction or disjunction is compact if it has not just one input. -/
def CompactNode : Tree κ → Prop
  | gate g inputs => g = .and ∨ g = .or → inputs.length ≠ 1
  | constant _ | permission _ _ _ => True

/-- A permission is bound if it carries the checker of its type. -/
def BoundNode (registry : Registry κ) : Tree κ → Prop
  | permission type _ checker => registry.get? type = some checker
  | constant _ | gate _ _ => True

/-- Every permission of the tree can be read back. -/
def Readable (registry : Registry κ) (tree : Tree κ) : Prop :=
  ∀ node ∈ tree.nodes, ReadableNode registry node

/-- Every conjunction and disjunction of the tree is compact. -/
def Compact (tree : Tree κ) : Prop := ∀ node ∈ tree.nodes, CompactNode node

/-- Every permission of the tree is bound. -/
def Bound (registry : Registry κ) (tree : Tree κ) : Prop :=
  ∀ node ∈ tree.nodes, BoundNode registry node

/-- A tree is canonical if it is compact and can be read back. -/
structure Canonical (registry : Registry κ) (tree : Tree κ) : Prop where
  readable : tree.Readable registry
  compact : tree.Compact

/-- Every constant is canonical. -/
theorem canonical_constant (registry : Registry κ) (value : Bool) :
    (constant value : Tree κ).Canonical registry :=
  ⟨forall_mem_nodes_constant.2 trivial, forall_mem_nodes_constant.2 trivial⟩

/-- A permission is canonical if it can be read back. -/
theorem canonical_permission_iff {registry : Registry κ} {type value : String} {checker : κ} :
    (permission type value checker).Canonical registry ↔
      registry.has type = true ∧ IsPermissionText value :=
  ⟨fun h => forall_mem_nodes_permission.1 h.readable,
    fun h => ⟨forall_mem_nodes_permission.2 h, forall_mem_nodes_permission.2 trivial⟩⟩

/-- A gate is canonical if it is compact and its inputs are canonical. -/
theorem canonical_gate_iff {registry : Registry κ} {g : Gate} {inputs : List (Tree κ)} :
    (gate g inputs).Canonical registry ↔
      (g = .and ∨ g = .or → inputs.length ≠ 1) ∧ ∀ input ∈ inputs, input.Canonical registry := by
  constructor
  · intro h
    have hcompact := forall_mem_nodes_gate.1 h.compact
    have hreadable := forall_mem_nodes_gate.1 h.readable
    exact ⟨hcompact.1, fun input hinput => ⟨hreadable.2 input hinput, hcompact.2 input hinput⟩⟩
  · rintro ⟨hcompact, hinputs⟩
    exact ⟨forall_mem_nodes_gate.2 ⟨trivial, fun input hinput => (hinputs input hinput).readable⟩,
      forall_mem_nodes_gate.2 ⟨hcompact, fun input hinput => (hinputs input hinput).compact⟩⟩

/-! ## Sameness -/

/-- Gates with the same keyword are the same. -/
theorem keyword_injective {g g' : Gate} (h : g.keyword = g'.keyword) : g = g' := by
  rw [← sameWord_keyword_iff, h, sameWord_self]

/-- Two trees are the same exactly if they have the same written form. -/
theorem same_iff_toJson_eq {a b : Tree κ} : a.same b = true ↔ a.toJson = b.toJson := by
  induction a using Tree.induction generalizing b with
  | constant value => cases b <;> simp [same, toJson]
  | permission type value checker => cases b <;> simp [same, toJson]
  | gate g inputs ih =>
      cases b with
      | constant value => simp [same, toJson]
      | permission type value checker => simp [same, toJson]
      | gate g' inputs' =>
          have hinputs : sameEach inputs inputs' = true ↔
              inputs.map toJson = inputs'.map toJson := by
            rw [sameEach_iff, ← forall₂_eq_iff_map_eq]
            exact forall₂_congr_of_mem fun input hinput b => ih input hinput
          have hgates : g = g' ↔ g.keyword = g'.keyword :=
            ⟨fun h => by rw [h], keyword_injective⟩
          simp [same, toJson, hinputs, hgates]

/-- Trees that are the same are canonical together. -/
theorem canonical_iff_of_same {registry : Registry κ} {a b : Tree κ} (h : a.same b = true) :
    a.Canonical registry ↔ b.Canonical registry := by
  induction a using Tree.induction generalizing b with
  | constant value =>
      cases b with
      | constant value' => simp [canonical_constant]
      | permission type value checker => simp [same] at h
      | gate g inputs => simp [same] at h
  | permission type value checker =>
      cases b with
      | constant value' => simp [same] at h
      | permission type' value' checker' =>
          simp only [same, Bool.and_eq_true, beq_iff_eq] at h
          rw [canonical_permission_iff, canonical_permission_iff, h.1, h.2]
      | gate g inputs => simp [same] at h
  | gate g inputs ih =>
      cases b with
      | constant value => simp [same] at h
      | permission type value checker => simp [same] at h
      | gate g' inputs' =>
          simp only [same, Bool.and_eq_true, beq_iff_eq, sameEach_iff] at h
          obtain ⟨rfl, hinputs⟩ := h
          rw [canonical_gate_iff, canonical_gate_iff, hinputs.length_eq,
            forall_mem_iff_of_forall₂ hinputs fun input hinput b hsame => ih input hinput hsame]

/-! ## Trees that have been read -/

/-- What is true of every tree that has been read. -/
structure Normal (registry : Registry κ) (tree : Tree κ) : Prop where
  canonical : tree.Canonical registry
  wellFormed : tree.wellFormed = true
  bound : tree.Bound registry

/-- Constants have no permissions and no inputs. -/
theorem normal_constant (registry : Registry κ) (value : Bool) :
    (constant value : Tree κ).Normal registry :=
  ⟨canonical_constant registry value, rfl, forall_mem_nodes_constant.2 trivial⟩

/-- A permission that is read has the checker of its type. -/
theorem normal_permission {registry : Registry κ} {type value : String} {checker : κ}
    (hget : registry.get? type = some checker) (htext : IsPermissionText value) :
    (permission type value checker).Normal registry := by
  have hhas : registry.has type = true := by rw [Registry.has, hget, Option.isSome_some]
  exact ⟨canonical_permission_iff.2 ⟨hhas, htext⟩, rfl, forall_mem_nodes_permission.2 hget⟩

/-- A gate over trees that have been read is one unless it could be left out. -/
theorem normal_gate {registry : Registry κ} {g : Gate} {inputs : List (Tree κ)}
    (hadmits : g.admits inputs.length = true)
    (hcompact : g = .and ∨ g = .or → inputs.length ≠ 1)
    (hinputs : ∀ input ∈ inputs, input.Normal registry) : (gate g inputs).Normal registry where
  canonical := canonical_gate_iff.2 ⟨hcompact, fun input hinput => (hinputs input hinput).canonical⟩
  wellFormed := wellFormed_gate_iff.2
    ⟨hadmits, fun input hinput => (hinputs input hinput).wellFormed⟩
  bound := forall_mem_nodes_gate.2 ⟨trivial, fun input hinput => (hinputs input hinput).bound⟩

/-- Unless a gate can be left out, joining puts it on top. -/
theorem joined_eq_gate {g : Gate} {inputs : List (Tree κ)}
    (hcompact : g = .and ∨ g = .or → inputs.length ≠ 1) : joined g inputs = gate g inputs := by
  unfold joined
  split
  · exact absurd rfl (hcompact (Or.inl rfl))
  · exact absurd rfl (hcompact (Or.inr rfl))
  · rfl

/-- A gate that can be left out is. -/
theorem joined_singleton {g : Gate} (hg : g = .and ∨ g = .or) (only : Tree κ) :
    joined g [only] = only := by
  rcases hg with rfl | rfl <;> rfl

/-- Either joining puts the gate on top, or the gate is left out over its only input. -/
theorem joined_cases (g : Gate) (inputs : List (Tree κ)) :
    (g = .and ∨ g = .or → inputs.length ≠ 1) ∨ (g = .and ∨ g = .or) ∧ ∃ only, inputs = [only] := by
  by_cases hcompact : g = .and ∨ g = .or → inputs.length ≠ 1
  · exact Or.inl hcompact
  · push Not at hcompact
    exact Or.inr ⟨hcompact.1, List.length_eq_one_iff.1 hcompact.2⟩

/-- Joining trees that have been read gives such a tree. -/
theorem normal_of_join {registry : Registry κ} {g : Gate} {inputs : List (Tree κ)} {tree : Tree κ}
    (hjoin : join g inputs = .ok tree) (hinputs : ∀ input ∈ inputs, input.Normal registry) :
    tree.Normal registry := by
  obtain ⟨hadmits, rfl⟩ := join_eq_ok_iff.1 hjoin
  rcases joined_cases g inputs with hcompact | ⟨hg, only, rfl⟩
  · rw [joined_eq_gate hcompact]
    exact normal_gate hadmits hcompact hinputs
  · rw [joined_singleton hg]
    exact hinputs only (by simp)

end Tree

namespace Expression

/-- The type in scope is registered with the checker in scope. -/
def ScopeBound (registry : Registry κ) (scope : Scope κ) : Prop :=
  ∀ name checker, scope = some (name, checker) → registry.get? name = some checker

/-- Outside every type there is nothing to be registered. -/
theorem scopeBound_none (registry : Registry κ) : ScopeBound registry none := by
  intro name checker h
  cases h

/-- A key keeps the scope bound. -/
theorem scopeBound_of_keyRead {registry : Registry κ} {scope : Scope κ} {key : String}
    {value : Json} {reading : Reading κ} (hscope : ScopeBound registry scope)
    (hkey : KeyRead registry scope key value reading) : ScopeBound registry reading.scope := by
  cases hkey with
  | position => exact hscope
  | gate => exact hscope
  | type _ _ hget =>
      intro name checker h
      cases h
      exact hget

/-- Everything that is read is normal. -/
theorem normal_of_siblings {registry : Registry κ} {scope : Scope κ} {value : Json}
    {trees : List (Tree κ)} (hscope : ScopeBound registry scope)
    (h : Siblings registry scope value trees) : ∀ tree ∈ trees, tree.Normal registry := by
  induction value using Json.induction generalizing scope trees with
  | null => exact absurd h not_siblings_null
  | bool b =>
      obtain ⟨-, rfl⟩ := siblings_bool_iff.1 h
      exact List.forall_mem_singleton.2 (Tree.normal_constant registry b)
  | number n => exact absurd h not_siblings_number
  | string s =>
      obtain ⟨tree, htree, rfl⟩ := siblings_string_iff.1 h
      rw [List.forall_mem_singleton]
      cases htree with
      | constant => exact Tree.normal_constant registry _
      | permission htext htype => exact Tree.normal_permission (hscope _ _ htype) htext
  | array items ih =>
      intro tree htree
      obtain ⟨item, hitem, inputs, hinputs, hjoin⟩ :=
        exists_mem_of_forall₂ (siblings_array_iff.1 h) tree htree
      exact Tree.normal_of_join hjoin (ih item hitem hscope hinputs)
  | object entries ih =>
      intro tree htree
      obtain ⟨keyed, hkeyed, reading, hkey, inputs, hinputs, hjoin⟩ :=
        exists_mem_of_forall₂ (siblings_object_iff.1 h) tree htree
      exact Tree.normal_of_join hjoin
        (ih keyed hkeyed (scopeBound_of_keyRead hscope hkey) hinputs)

/-- The tree of an accepted expression is normal. -/
theorem normal_of_read {registry : Registry κ} {raw : Json} {tree : Tree κ}
    (h : read registry raw = .ok tree) : tree.Normal registry := by
  rcases read_eq_ok_iff.1 h with ⟨-, rfl⟩ | ⟨-, inputs, hinputs, hjoin⟩
  · exact Tree.normal_constant registry true
  · exact Tree.normal_of_join hjoin (normal_of_siblings (scopeBound_none registry) hinputs)

end Expression

end Clearance
