import Clearance.Proofs.TextChecks

/-!
# Depth

An object takes one level of an expression but may become two gates: that of its key, and the
disjunction of its entries.  Above a leaf there is nevertheless at most one gate more than
collections are nested, since the value of a gate that has several inputs takes a level for itself.
The limit on nesting therefore bounds every walk through a tree that is read.  It does not bound the
nesting of guarded expressions in the same way: a restriction of the bypass, which is read by
itself, is counted from its own root.
-/

namespace Clearance

variable {κ : Type}

/-! ## Branches -/

namespace Tree

mutual

/-- The gates above each leaf, from the root down; the leaves are taken from left to right. -/
def branches : Tree κ → List (List Gate)
  | constant _ | permission _ _ _ => [[]]
  | gate g inputs => (branchesEach inputs).map fun branch => g :: branch

/-- The gates above each leaf of these trees. -/
def branchesEach : List (Tree κ) → List (List Gate)
  | [] => []
  | tree :: rest => branches tree ++ branchesEach rest

end

mutual

/-- How many gates are nested in each other at most. -/
def depth : Tree κ → Nat
  | constant _ | permission _ _ _ => 0
  | gate _ inputs => depthEach inputs + 1

/-- The greatest depth among these trees. -/
def depthEach : List (Tree κ) → Nat
  | [] => 0
  | tree :: rest => max (depth tree) (depthEach rest)

end

/-- A branch of trees is a branch of one of them. -/
theorem mem_branchesEach {trees : List (Tree κ)} {branch : List Gate} :
    branch ∈ branchesEach trees ↔ ∃ tree ∈ trees, branch ∈ tree.branches := by
  induction trees with
  | nil => simp [branchesEach]
  | cons tree rest ih => simp [branchesEach, ih]

/-- A branch of a gate is that gate and a branch of one of its inputs. -/
theorem mem_branches_gate {g : Gate} {inputs : List (Tree κ)} {branch : List Gate} :
    branch ∈ (gate g inputs).branches ↔
      ∃ input ∈ inputs, ∃ rest ∈ input.branches, branch = g :: rest := by
  rw [branches, List.mem_map]
  constructor
  · rintro ⟨rest, hrest, rfl⟩
    obtain ⟨input, hinput, hrest⟩ := mem_branchesEach.1 hrest
    exact ⟨input, hinput, rest, hrest, rfl⟩
  · rintro ⟨input, hinput, rest, hrest, rfl⟩
    exact ⟨rest, mem_branchesEach.2 ⟨input, hinput, hrest⟩, rfl⟩

/-- The depth of trees is bounded by a bound for each. -/
theorem depthEach_le_iff {trees : List (Tree κ)} {n : Nat} :
    depthEach trees ≤ n ↔ ∀ tree ∈ trees, tree.depth ≤ n := by
  induction trees with
  | nil => simp [depthEach]
  | cons tree rest ih => rw [depthEach, Nat.max_le, ih, List.forall_mem_cons]

/-- None of several trees is deeper than they are together. -/
theorem depth_le_depthEach {trees : List (Tree κ)} {tree : Tree κ} (h : tree ∈ trees) :
    tree.depth ≤ depthEach trees :=
  depthEach_le_iff.1 (Nat.le_refl _) tree h

/-- One of several trees is as deep as they are together. -/
theorem exists_depth_eq_depthEach {trees : List (Tree κ)} (hne : trees ≠ []) :
    ∃ tree ∈ trees, tree.depth = depthEach trees := by
  induction trees with
  | nil => exact absurd rfl hne
  | cons first rest ih =>
      rw [depthEach]
      by_cases hdeepest : depthEach rest ≤ first.depth
      · exact ⟨first, by simp, (Nat.max_eq_left hdeepest).symm⟩
      · have hrest : rest ≠ [] := by
          rintro rfl
          exact hdeepest (Nat.zero_le _)
        obtain ⟨tree, htree, hdepth⟩ := ih hrest
        exact ⟨tree, by simp [htree], by rw [hdepth]; omega⟩

/-- No branch is longer than the tree is deep. -/
theorem length_le_depth {tree : Tree κ} {branch : List Gate} (h : branch ∈ tree.branches) :
    branch.length ≤ tree.depth := by
  induction tree using Tree.induction generalizing branch with
  | constant value => simp_all [branches]
  | permission type value checker => simp_all [branches]
  | gate g inputs ih =>
      obtain ⟨input, hinput, rest, hrest, rfl⟩ := mem_branches_gate.1 h
      rw [depth, List.length_cons, Nat.add_le_add_iff_right]
      exact Nat.le_trans (ih input hinput hrest) (depth_le_depthEach hinput)

/-- Some branch is as long as the tree is deep: no gate is without inputs. -/
theorem exists_branch_of_depth {tree : Tree κ} (hwf : tree.wellFormed = true) :
    ∃ branch ∈ tree.branches, branch.length = tree.depth := by
  induction tree using Tree.induction with
  | constant value => exact ⟨[], by simp [branches], rfl⟩
  | permission type value checker => exact ⟨[], by simp [branches], rfl⟩
  | gate g inputs ih =>
      rw [wellFormed_gate_iff] at hwf
      have hne : inputs ≠ [] := by
        rintro rfl
        cases g <;> cases hwf.1
      obtain ⟨input, hinput, hdepth⟩ := exists_depth_eq_depthEach hne
      obtain ⟨rest, hrest, hlength⟩ := ih input hinput (hwf.2 input hinput)
      exact ⟨g :: rest, mem_branches_gate.2 ⟨input, hinput, rest, hrest, rfl⟩, by
        rw [List.length_cons, hlength, hdepth, depth]⟩

/-- A gate takes two levels of a written form, and a permission one. -/
theorem nesting_toJson_le (tree : Tree κ) : tree.toJson.nesting ≤ 2 * tree.depth + 1 := by
  induction tree using Tree.induction with
  | constant value => simp [toJson, Json.nesting]
  | permission type value checker => simp [toJson, Json.nesting, Json.nestingEntries]
  | gate g inputs ih =>
      have hinputs : Json.nestingItems (inputs.map toJson) ≤ 2 * depthEach inputs + 1 := by
        rw [Json.nestingItems_le_iff, List.forall_mem_map]
        intro input hinput
        have hdepth := depth_le_depthEach hinput
        have hinput := ih input hinput
        omega
      rw [toJson, toJsonEach_eq_map, depth]
      simp only [Json.nesting, Json.nestingEntries]
      omega

/-- Joining adds at most one gate. -/
theorem depth_le_of_join {g : Gate} {inputs : List (Tree κ)} {tree : Tree κ} {n : Nat}
    (h : join g inputs = .ok tree) (hinputs : ∀ input ∈ inputs, input.depth ≤ n) :
    tree.depth ≤ n + 1 := by
  obtain ⟨-, rfl⟩ := join_eq_ok_iff.1 h
  rcases joined_cases g inputs with hcompact | ⟨hg, only, rfl⟩
  · rw [joined_eq_gate hcompact, depth, Nat.add_le_add_iff_right]
    exact depthEach_le_iff.2 hinputs
  · rw [joined_singleton hg]
    exact Nat.le_succ_of_le (hinputs only (by simp))

end Tree

/-! ## The depth of what is read -/

namespace Expression

/-- No sibling of a value is deeper than the value nests.  The gate that joins the siblings of a
member takes the level of the collection that the member is in. -/
theorem depth_le_of_siblings {registry : Registry κ} {scope : Scope κ} {value : Json}
    {trees : List (Tree κ)} (h : Siblings registry scope value trees) :
    ∀ tree ∈ trees, tree.depth ≤ value.nesting := by
  induction value using Json.induction generalizing scope trees with
  | null => exact absurd h not_siblings_null
  | number n => exact absurd h not_siblings_number
  | bool b =>
      obtain ⟨-, rfl⟩ := siblings_bool_iff.1 h
      simp [Tree.depth]
  | string s =>
      obtain ⟨tree, htext, rfl⟩ := siblings_string_iff.1 h
      cases htext <;> simp [Tree.depth]
  | array items ih =>
      intro tree htree
      obtain ⟨item, hitem, inputs, hinputs, hjoin⟩ :=
        exists_mem_of_forall₂ (siblings_array_iff.1 h) tree htree
      have hnesting := Json.nestingItems_le_iff.1 (Nat.le_refl (Json.nestingItems items)) item hitem
      rw [Json.nesting]
      exact Tree.depth_le_of_join hjoin fun input hinput =>
        Nat.le_trans (ih item hitem hinputs input hinput) hnesting
  | object entries ih =>
      intro tree htree
      obtain ⟨keyed, hkeyed, reading, -, inputs, hinputs, hjoin⟩ :=
        exists_mem_of_forall₂ (siblings_object_iff.1 h) tree htree
      have hnesting :=
        Json.nestingEntries_le_iff.1 (Nat.le_refl (Json.nestingEntries entries)) keyed hkeyed
      rw [Json.nesting]
      exact Tree.depth_le_of_join hjoin fun input hinput =>
        Nat.le_trans (ih keyed hkeyed hinputs input hinput) hnesting

/-- A tree that is read is at most one gate deeper than its expression nests. -/
theorem depth_le_of_read {registry : Registry κ} {raw : Json} {tree : Tree κ}
    (h : read registry raw = .ok tree) : tree.depth ≤ raw.nesting + 1 := by
  rcases read_eq_ok_iff.1 h with ⟨-, rfl⟩ | ⟨-, inputs, hinputs, hjoin⟩
  · exact Nat.zero_le _
  · exact Tree.depth_le_of_join hjoin (depth_le_of_siblings hinputs)

end Expression

/-! ## The deepest trees -/

/-- The tree of a negation beside a constant, with so many further disjunctions above. -/
def Tree.stairs : Nat → Tree κ
  | 0 => .gate .or [.gate .not [.constant true], .constant true]
  | n + 1 => .gate .or [stairs n, .constant true]

/-- There are two gates above the negated constant and one for each further step. -/
theorem Tree.depth_stairs (n : Nat) : (stairs n : Tree κ).depth = n + 2 := by
  induction n with
  | zero => rfl
  | succ n ih => simp [stairs, depth, depthEach, ih]

namespace Expression

/-- An object that becomes two gates, in so many arrays that become one each. -/
def stairs : Nat → Json
  | 0 => .object [(Gate.not.keyword, .bool true), ("0", .bool true)]
  | n + 1 => .array [stairs n, .bool true]

/-- Each step takes one level. -/
theorem nesting_stairs (n : Nat) : (stairs n).nesting = n + 1 := by
  induction n with
  | zero => rfl
  | succ n ih => simp [stairs, Json.nesting, Json.nestingItems, ih]

/-- Every step becomes a gate. -/
theorem stands_stairs (registry : Registry κ) (n : Nat) :
    Stands registry none (stairs n) (Tree.stairs n) := by
  have htrue : Siblings registry none (.bool true) [.constant true] :=
    siblings_bool_iff.2 ⟨rfl, rfl⟩
  induction n with
  | zero =>
      have hnot : EntryStands registry none (Gate.not.keyword, .bool true)
          (.gate .not [.constant true]) :=
        ⟨_, .gate (Key.ofText_keyword .not) rfl, _, htrue, rfl⟩
      have hzero : EntryStands registry none ("0", .bool true) (.constant true) :=
        ⟨_, .position (ofText_eq_position_iff.2 (by decide)), _, htrue, rfl⟩
      exact ⟨_, siblings_object_iff.2 (.cons hnot (.cons hzero .nil)), rfl⟩
  | succ n ih =>
      have htail : Stands registry none (.bool true) (.constant true) := ⟨_, htrue, rfl⟩
      exact ⟨_, siblings_array_iff.2 (.cons ih (.cons htail .nil)), rfl⟩

/-- **The limit on nesting bounds every walk through a tree.**  In a tree that is read there is at
most one gate more above a leaf than collections are nested in the expression, so that there are
never more than the limit and one, and the written form nests at most three collections more than
twice as many.  From one level up to the limit some expression of that nesting has a leaf below one
gate more. -/
theorem gates_above_leaves (registry : Registry κ) :
    (∀ raw tree, read registry raw = .ok tree →
      (∀ branch ∈ tree.branches,
        branch.length ≤ raw.nesting + 1 ∧ branch.length ≤ nestingLimit + 1) ∧
      tree.toJson.nesting ≤ 2 * raw.nesting + 3) ∧
    ∀ n, 1 ≤ n → n ≤ nestingLimit → ∃ raw tree, raw.nesting = n ∧ read registry raw = .ok tree ∧
      ∃ branch ∈ tree.branches, branch.length = n + 1 := by
  constructor
  · intro raw tree hread
    have hdepth := depth_le_of_read hread
    have hnesting := nesting_le_of_read hread
    constructor
    · intro branch hbranch
      have hlength := Tree.length_le_depth hbranch
      exact ⟨by omega, by omega⟩
    · have hwritten := Tree.nesting_toJson_le tree
      omega
  · intro n hpos hlimit
    obtain ⟨steps, rfl⟩ : ∃ steps, n = steps + 1 := ⟨n - 1, by omega⟩
    have hread : read registry (stairs steps) = .ok (Tree.stairs steps) := by
      rw [read_eq_ite (stands_stairs registry steps), if_pos (by rwa [nesting_stairs])]
    obtain ⟨branch, hbranch, hlength⟩ :=
      Tree.exists_branch_of_depth (normal_of_read hread).wellFormed
    rw [Tree.depth_stairs] at hlength
    exact ⟨stairs steps, Tree.stairs steps, nesting_stairs steps, hread, branch, hbranch, hlength⟩

/-- Two levels become three gates here, and seven levels of the written form; and there is an
expression with a hundred and twenty-nine gates above a leaf. -/
theorem gates_above_leaves_role :
    let raw := Json.object
      [("role", .object [("NOT", .string "guest"), ("0", .string "admin")]), ("1", .bool false)]
    let tree := Tree.gate .or [.gate .or [.gate .not [.permission "role" "guest" ()],
      .permission "role" "admin" ()], .constant false]
    read Registry.roles raw = .ok tree ∧
      ((∀ branch ∈ tree.branches, branch.length ≤ 3) ∧ tree.toJson.nesting ≤ 7) ∧
      ([Gate.or, .or, .not] ∈ tree.branches ∧ tree.toJson.nesting = 7) ∧
      ∃ raw tree, raw.nesting = 128 ∧ read Registry.roles raw = .ok tree ∧
        ∃ branch ∈ tree.branches, branch.length = 129 := by
  intro raw tree
  have hread : read Registry.roles raw = .ok tree := rfl
  obtain ⟨hbranches, hwritten⟩ := (gates_above_leaves Registry.roles).1 raw tree hread
  exact ⟨hread, ⟨fun branch hbranch => (hbranches branch hbranch).1, hwritten⟩,
    ⟨by decide, by decide⟩, (gates_above_leaves Registry.roles).2 128 (by decide) (by decide)⟩

/-! ## Deep restrictions -/

/-- **Only a restriction makes a deep expression acceptable.**  An expression that nests deeper than
the limit is accepted exactly if one of its entries, and no other, has a key of the restriction, the
value of that entry nests as deep as the limit by itself, and both that value and the rest are
accepted. -/
theorem deep_accepted_iff {registry : Registry κ} {raw : Json}
    (hdeep : nestingLimit < raw.nesting) :
    (∃ tree, readGuarded registry raw = .ok tree) ↔
      ∃ before key restriction after, raw = .object (before ++ (key, restriction) :: after) ∧
        isNoBypass key = true ∧ (∀ keyed ∈ before ++ after, isNoBypass keyed.1 = false) ∧
        restriction.nesting = nestingLimit ∧
        (∃ noBypass, read registry restriction = .ok noBypass) ∧
        ∃ main, read registry (.object (before ++ after)) = .ok main := by
  constructor
  · rintro ⟨⟨mainTree, noBypass⟩, h⟩
    obtain ⟨restriction, main, hparts, hrestriction, hmain⟩ := readGuarded_eq_ok_iff.1 h
    have hmainNesting := nesting_le_of_read hmain
    rcases parts_eq_ok_cases hparts with
      ⟨-, rfl⟩ | ⟨before, key, value, after, rfl, rfl, rfl, hkey, hothers⟩
    · exact absurd hdeep (Nat.not_lt.2 hmainNesting)
    · cases hrestriction with
      | some hread =>
          -- a restriction with a level to spare fits into the limit together with its key
          have hvalue : ¬ value.nesting < nestingLimit := by
            intro hbelow
            refine absurd hdeep (Nat.not_lt.2 ?_)
            refine nesting_le_of_parts (by decide) hparts hmainNesting ?_
            rintro other ⟨⟩
            exact hbelow
          have hlimit := Nat.le_antisymm (nesting_le_of_read hread) (Nat.not_lt.1 hvalue)
          exact ⟨before, key, value, after, rfl, hkey, hothers, hlimit, ⟨_, hread⟩, mainTree, hmain⟩
  · rintro ⟨before, key, restriction, after, rfl, hkey, hothers, -, hrestriction, hmain⟩
    refine (exists_readGuarded_iff_of_parts (parts_of_one restriction hkey hothers)).2 ⟨?_, hmain⟩
    rintro value ⟨⟩
    exact hrestriction

/-- A hundred and twenty-nine negations are not accepted; beside a role a hundred and twenty-eight
are accepted as a restriction. -/
theorem deep_accepted_iff_negations :
    (nestingLimit < (negations 129).nesting ∧
      ¬ ∃ tree, readGuarded Registry.roles (negations 129) = .ok tree) ∧
    ∃ tree, readGuarded Registry.roles
      (.object [("role", .string "admin"), ("NO_BYPASS", negations 128)]) = .ok tree := by
  have hdeep : nestingLimit < (negations 129).nesting := by
    rw [nesting_negations]
    decide
  refine ⟨⟨hdeep, ?_⟩, ?_⟩
  · intro haccepted
    obtain ⟨before, key, restriction, after, hraw, hkey, -⟩ := (deep_accepted_iff hdeep).1 haccepted
    have hmem : (key, restriction) ∈ [(Gate.not.keyword, negations 128)] := by
      rw [Json.object.inj hraw]
      simp
    cases List.mem_singleton.1 hmem
    exact absurd hkey (by decide)
  · have hdeep : nestingLimit < (Json.object
        [("role", .string "admin"), ("NO_BYPASS", negations 128)]).nesting := by
      simp [Json.nesting, Json.nestingEntries, nesting_negations, nestingLimit]
    have hrestriction := read_negations Registry.roles (show 128 ≤ nestingLimit by decide)
    exact (deep_accepted_iff hdeep).2 ⟨[("role", .string "admin")], "NO_BYPASS", negations 128, [],
      rfl, by decide, by decide, nesting_negations 128, ⟨_, hrestriction⟩, _, rfl⟩

/-- A restriction of a hundred and twenty-eight negations makes an expression that nests deeper than
the limit and is accepted. -/
theorem deep_restriction_accepted :
    ∃ raw : Json, ∃ tree : GuardedTree Unit, nestingLimit < raw.nesting ∧
      readGuarded Registry.roles raw = .ok tree := by
  have hone := @readGuarded_of_one Unit Registry.roles [] [] "NO_BYPASS" (negations 128) (by decide)
    (by simp)
  rw [read_negations _ (by decide)] at hone
  refine ⟨.object [("NO_BYPASS", negations 128)], _, ?_, hone⟩
  simp [Json.nesting, Json.nestingEntries, nesting_negations, nestingLimit]

end Expression

end Clearance
