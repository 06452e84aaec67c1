import Clearance.Proofs.Canonical

/-!
# Reading written forms

The written form of a tree that can be read back is read exactly if it nests no deeper than the
limit, and is too deep otherwise.  What it is read as is the tree itself, with the checkers of the
registry, if the tree is compact.  A gate takes two collections in its written form, but may take a
single one in an expression, so that the written form of an accepted expression can be too deep.
-/

namespace Clearance

variable {κ : Type}

/-! ## What a written form is read as -/

namespace Tree

mutual

/-- The tree with the checkers of a registry, and without the gates that can be left out. -/
def reread (registry : Registry κ) : Tree κ → Tree κ
  | constant value => constant value
  | permission type value checker =>
    permission type value ((registry.get? type).getD checker)
  | gate g inputs => joined g (rereadEach registry inputs)

/-- The same for each of these trees. -/
def rereadEach (registry : Registry κ) : List (Tree κ) → List (Tree κ)
  | [] => []
  | tree :: rest => reread registry tree :: rereadEach registry rest

end

/-- Trees are read again each by itself. -/
theorem rereadEach_eq_map (registry : Registry κ) (trees : List (Tree κ)) :
    rereadEach registry trees = trees.map (reread registry) := by
  induction trees with
  | nil => rfl
  | cons tree rest ih => rw [rereadEach, ih, List.map_cons]

/-- A compact gate is kept. -/
theorem reread_gate {registry : Registry κ} {g : Gate} {inputs : List (Tree κ)}
    (hcompact : g = .and ∨ g = .or → inputs.length ≠ 1) :
    (gate g inputs).reread registry = gate g (inputs.map (reread registry)) := by
  rw [reread, rereadEach_eq_map, joined_eq_gate]
  rwa [List.length_map]

/-- A compact tree is kept but for its checkers. -/
theorem same_reread {registry : Registry κ} {tree : Tree κ} (hcompact : tree.Compact) :
    (tree.reread registry).same tree = true := by
  induction tree using Tree.induction with
  | constant value => exact same_refl _
  | permission type value checker => simp [reread, same]
  | gate g inputs ih =>
      obtain ⟨hgate, hinputs⟩ := forall_mem_nodes_gate.1 hcompact
      rw [reread_gate hgate, same, beq_self_eq_true, Bool.true_and, sameEach_iff,
        List.forall₂_map_left_iff, List.forall₂_same]
      exact fun input hinput => ih input hinput (hinputs input hinput)

/-- A compact tree that has the checkers of the registry is kept. -/
theorem reread_eq_self {registry : Registry κ} {tree : Tree κ} (hcompact : tree.Compact)
    (hbound : tree.Bound registry) : tree.reread registry = tree := by
  induction tree using Tree.induction with
  | constant value => rfl
  | permission type value checker =>
      have hget : registry.get? type = some checker := forall_mem_nodes_permission.1 hbound
      rw [reread, hget, Option.getD_some]
  | gate g inputs ih =>
      obtain ⟨hgate, hinputs⟩ := forall_mem_nodes_gate.1 hcompact
      have hbounds := (forall_mem_nodes_gate.1 hbound).2
      rw [reread_gate hgate, List.map_congr_left fun input hinput =>
        ih input hinput (hinputs input hinput) (hbounds input hinput), List.map_id']

end Tree

/-! ## Deep trees -/

namespace Tree

/-- The tree of so many negations. -/
def negated : Nat → Tree κ
  | 0 => .constant true
  | n + 1 => .gate .not [negated n]

/-- Negations of a constant are canonical. -/
theorem canonical_negated (registry : Registry κ) (n : Nat) :
    (negated n : Tree κ).Canonical registry := by
  induction n with
  | zero => exact canonical_constant registry true
  | succ n ih => exact canonical_gate_iff.2 ⟨by simp, List.forall_mem_singleton.2 ih⟩

/-- Negations have one input each. -/
theorem wellFormed_negated (n : Nat) : (negated n : Tree κ).wellFormed = true := by
  induction n with
  | zero => rfl
  | succ n ih =>
      rw [negated, wellFormed_gate_iff, List.forall_mem_singleton]
      exact ⟨rfl, ih⟩

/-- Each negation takes two levels of a written form. -/
theorem nesting_toJson_negated (n : Nat) : (negated n : Tree κ).toJson.nesting = 2 * n := by
  induction n with
  | zero => rfl
  | succ n ih =>
      simp only [negated, Tree.toJson, Tree.toJsonEach_eq_map, List.map_cons, List.map_nil,
        Json.nesting, Json.nestingItems, Json.nestingEntries, ih]
      omega

end Tree

/-! ## Siblings of a written form -/

namespace Expression

/-- The written form of a permission is read as that permission. -/
theorem siblings_typed {registry : Registry κ} {type value : String}
    (hhas : registry.has type = true) (htext : IsPermissionText value) (checker : κ)
    (room : Nat) :
    siblings registry none (room + 1) (.object [(type, .string value)]) =
      .ok [.permission type value ((registry.get? type).getD checker)] := by
  obtain ⟨found, hget⟩ := Option.isSome_iff_exists.1 hhas
  rw [hget, Option.getD_some, siblings_object_succ, mapM_eq_ok_iff, List.forall₂_cons]
  refine ⟨entry_eq_ok_iff.2 ⟨⟨.or, some (type, found)⟩, ?_, ?_⟩, .nil⟩
  · exact .type (ofText_eq_type_iff.2 ⟨rfl, isTypeKey_of_get? hget⟩) rfl hget
  · refine ⟨[.permission type value found], ?_, rfl⟩
    rw [siblings_eq_ok_iff, siblings_string_iff]
    exact ⟨Nat.zero_le room, _, .permission htext rfl, rfl⟩

/-- The written form of a tree that can be read back gives that tree, read again, for its only
sibling. -/
theorem siblings_toJson {registry : Registry κ} {tree : Tree κ}
    (hreadable : tree.Readable registry) (hwf : tree.wellFormed = true) :
    Siblings registry none tree.toJson [tree.reread registry] := by
  induction tree using Tree.induction with
  | constant value => exact siblings_bool_iff.2 ⟨rfl, rfl⟩
  | permission type value checker =>
      obtain ⟨hhas, htext⟩ := Tree.forall_mem_nodes_permission.1 hreadable
      exact (siblings_eq_ok_iff.1 (siblings_typed hhas htext checker 0)).2
  | gate g inputs ih =>
      have hreadables := (Tree.forall_mem_nodes_gate.1 hreadable).2
      rw [Tree.wellFormed_gate_iff] at hwf
      have hinputs : Siblings registry none (.array (inputs.map Tree.toJson))
          (inputs.map (Tree.reread registry)) := by
        rw [siblings_array_iff, List.forall₂_map_left_iff, List.forall₂_map_right_iff,
          List.forall₂_same]
        exact fun input hinput =>
          ⟨_, ih input hinput (hreadables input hinput) (hwf.2 input hinput), rfl⟩
      have hjoin : Tree.join g (inputs.map (Tree.reread registry)) =
          .ok ((Tree.gate g inputs).reread registry) := by
        rw [Tree.join_eq_ok_iff, List.length_map, Tree.reread, Tree.rereadEach_eq_map]
        exact ⟨hwf.1, rfl⟩
      have hkey : KeyRead registry none g.keyword (.array (inputs.map Tree.toJson)) ⟨g, none⟩ :=
        .gate (Key.ofText_keyword g) (by simp [Json.isCollection])
      rw [Tree.toJson, Tree.toJsonEach_eq_map]
      exact siblings_object_iff.2 (.cons ⟨_, hkey, _, hinputs, hjoin⟩ .nil)

/-- The written form of a tree that can be read back stands for that tree, read again. -/
theorem stands_toJson {registry : Registry κ} {tree : Tree κ}
    (hreadable : tree.Readable registry) (hwf : tree.wellFormed = true) :
    Stands registry none tree.toJson (tree.reread registry) :=
  ⟨_, siblings_toJson hreadable hwf, rfl⟩

/-! ## Whole written forms -/

/-- A written form is accepted unless it is too deep. -/
theorem read_toJson {registry : Registry κ} {tree : Tree κ} (hreadable : tree.Readable registry)
    (hwf : tree.wellFormed = true) :
    read registry tree.toJson =
      if tree.toJson.nesting ≤ nestingLimit then .ok (tree.reread registry)
      else .error .tooDeep := by
  exact read_eq_ite (stands_toJson hreadable hwf)

/-- A normal tree is read back from its written form unless that is too deep. -/
theorem read_toJson_of_normal {registry : Registry κ} {tree : Tree κ}
    (hnormal : tree.Normal registry) :
    read registry tree.toJson =
      if tree.toJson.nesting ≤ nestingLimit then .ok tree else .error .tooDeep := by
  rw [read_toJson hnormal.canonical.readable hnormal.wellFormed,
    Tree.reread_eq_self hnormal.canonical.compact hnormal.bound]

/-- **Image of the written forms.**  A tree whose gates have numbers of inputs that they admit is
read back from its written form exactly if it is canonical and the form nests no deeper than the
limit.  The written form of a canonical tree that nests deeper is too deep, and nothing else. -/
theorem read_toJson_iff_canonical (registry : Registry κ) (tree : Tree κ)
    (hwf : tree.wellFormed = true) :
    ((∃ result, read registry tree.toJson = .ok result ∧ result.same tree = true) ↔
      tree.Canonical registry ∧ tree.toJson.nesting ≤ nestingLimit) ∧
    (tree.Canonical registry → ¬ tree.toJson.nesting ≤ nestingLimit →
      read registry tree.toJson = .error .tooDeep ∧
        Fault.tooDeep.kind = "invalid_argument_type") := by
  refine ⟨⟨?_, ?_⟩, ?_⟩
  · rintro ⟨result, hread, hsame⟩
    have hcanonical := (Tree.canonical_iff_of_same hsame).1 (normal_of_read hread).canonical
    refine ⟨hcanonical, ?_⟩
    rw [read_toJson hcanonical.readable hwf] at hread
    by_contra hdeep
    rw [if_neg hdeep] at hread
    cases hread
  · rintro ⟨hcanonical, hnesting⟩
    refine ⟨tree.reread registry, ?_, Tree.same_reread hcanonical.compact⟩
    rw [read_toJson hcanonical.readable hwf, if_pos hnesting]
  · intro hcanonical hdeep
    rw [read_toJson hcanonical.readable hwf, if_neg hdeep]
    exact ⟨rfl, rfl⟩

/-- Beside a role, sixty-three negations are read back and sixty-four are too deep. -/
theorem read_toJson_iff_canonical_negated :
    (∃ result, read Registry.roles
        (Tree.toJson (.gate .xor [.permission "role" "admin" (), Tree.negated 63])) = .ok result ∧
      result.same (.gate .xor [.permission "role" "admin" (), Tree.negated 63]) = true) ∧
    read Registry.roles
        (Tree.toJson (.gate .xor [.permission "role" "admin" (), Tree.negated 64])) =
      .error .tooDeep := by
  have hwf : ∀ n, (Tree.gate .xor
      [.permission "role" "admin" (), Tree.negated n]).wellFormed = true := by
    intro n
    simp [Tree.wellFormed, Tree.wellFormedEach, Tree.wellFormed_negated]
    rfl
  have hcanonical : ∀ n, (Tree.gate .xor
      [.permission "role" "admin" (), Tree.negated n]).Canonical Registry.roles := by
    intro n
    rw [Tree.canonical_gate_iff, List.forall_mem_cons, List.forall_mem_singleton,
      Tree.canonical_permission_iff]
    exact ⟨by simp, ⟨rfl, by decide⟩, Tree.canonical_negated _ n⟩
  have hnesting : ∀ n, (Tree.gate .xor
      [.permission "role" "admin" (), Tree.negated n]).toJson.nesting = max 1 (2 * n) + 2 := by
    intro n
    simp [Tree.toJson, Json.nesting, Json.nestingItems, Json.nestingEntries,
      Tree.nesting_toJson_negated]
  constructor
  · refine (read_toJson_iff_canonical Registry.roles _ (hwf 63)).1.2 ⟨hcanonical 63, ?_⟩
    rw [hnesting]
    decide
  · refine ((read_toJson_iff_canonical Registry.roles _ (hwf 64)).2 (hcanonical 64) ?_).1
    rw [hnesting]
    decide

end Expression

end Clearance
