import Clearance.Proofs.RoundTrip

/-!
# Normal forms of expressions

Reading an expression and writing the tree gives its normal form.  A normal form is read as the tree
it was written from, so that it is its own normal form, unless it is too deep: where an expression
nests one collection for a gate, the normal form nests two.
-/

namespace Clearance

variable {κ : Type}

/-! ## The bypass restriction -/

namespace Expression

/-- Only the bypass restriction itself is taken out. -/
theorem isNoBypass_eq_false {key : String} (h : Key.ofText key ≠ .noBypass) :
    isNoBypass key = false := by
  by_contra hkey
  rw [Bool.not_eq_false, isNoBypass, Bool.or_eq_true, beq_iff_eq, beq_iff_eq] at hkey
  rcases hkey with rfl | rfl
  · exact h (by decide)
  · exact h (by decide)

/-- Where there is no bypass restriction nothing is taken out. -/
theorem splitNoBypass_of_none {entries : List (String × Json)}
    (h : ∀ keyed ∈ entries, isNoBypass keyed.1 = false) :
    splitNoBypass entries = .ok (none, entries) := by
  have hkept : entries.filter (fun keyed => !isNoBypass keyed.1) = entries :=
    List.filter_eq_self.2 fun keyed hkeyed => by rw [h keyed hkeyed, Bool.not_false]
  have htaken : entries.filter (fun keyed => isNoBypass keyed.1) = [] :=
    List.filter_eq_nil_iff.2 fun keyed hkeyed => by rw [h keyed hkeyed]; simp
  unfold splitNoBypass
  simp only [htaken, hkept]

/-- An object without a bypass restriction is read as a main tree only. -/
theorem readGuarded_of_none {registry : Registry κ} {entries : List (String × Json)}
    (h : ∀ keyed ∈ entries, isNoBypass keyed.1 = false) :
    readGuarded registry (.object entries) =
      (read registry (.object entries)).map fun main => ⟨main, none⟩ := by
  rw [readGuarded, splitNoBypass_of_none h]
  show (read registry (.object entries) >>= fun main =>
    (pure ⟨main, none⟩ : Except Fault (GuardedTree κ))) = _
  cases read registry (.object entries) <;> rfl

/-- The written form of a tree that can be read back has no bypass restriction. -/
theorem readGuarded_toJson_main {registry : Registry κ} {tree : Tree κ}
    (hreadable : tree.Readable registry) :
    readGuarded registry tree.toJson =
      (read registry tree.toJson).map fun main => ⟨main, none⟩ := by
  cases tree with
  | constant value => rfl
  | permission type value checker =>
      obtain ⟨hhas, -⟩ := Tree.forall_mem_nodes_permission.1 hreadable
      obtain ⟨found, hget⟩ := Option.isSome_iff_exists.1 hhas
      have hkey := ofText_eq_type_iff.2 ⟨rfl, isTypeKey_of_get? hget⟩
      refine readGuarded_of_none (List.forall_mem_singleton.2 (isNoBypass_eq_false ?_))
      rw [hkey]
      simp
  | gate g inputs =>
      refine readGuarded_of_none (List.forall_mem_singleton.2 (isNoBypass_eq_false ?_))
      rw [Key.ofText_keyword]
      simp

/-- A single item of a whole expression is read with one level less than the limit. -/
theorem read_position (registry : Registry κ) (value : Json) :
    read registry (.object [("0", value)]) = unit registry none (nestingLimit - 1) value :=
  unit_single (readKey_eq_ok_iff.2 (.position (by decide))) (nestingLimit - 1)

end Expression

/-! ## Guarded trees -/

namespace GuardedTree

/-- A property of both trees. -/
def Both (P : Tree κ → Prop) (tree : GuardedTree κ) : Prop :=
  P tree.main ∧ ∀ noBypass ∈ tree.noBypass, P noBypass

/-- Whether the written form can be read: beside a restriction the main tree stands one level
deeper, while the restriction starts anew. -/
def Shallow (tree : GuardedTree κ) : Prop :=
  match tree.noBypass with
  | none => tree.main.toJson.nesting ≤ nestingLimit
  | some noBypass =>
    noBypass.toJson.nesting ≤ nestingLimit ∧ tree.main.toJson.nesting ≤ nestingLimit - 1

instance : (tree : GuardedTree κ) → Decidable tree.Shallow
  | ⟨_, none⟩ => inferInstanceAs (Decidable (_ ≤ nestingLimit))
  | ⟨_, some _⟩ => inferInstanceAs (Decidable (_ ≤ nestingLimit ∧ _ ≤ nestingLimit - 1))

/-- Both trees with the checkers of a registry, and without the gates that can be left out. -/
def reread (registry : Registry κ) (tree : GuardedTree κ) : GuardedTree κ :=
  ⟨tree.main.reread registry, tree.noBypass.map (Tree.reread registry)⟩

end GuardedTree

namespace Expression

/-- The written form of a guarded tree is accepted unless it is too deep. -/
theorem readGuarded_toJson {registry : Registry κ} {tree : GuardedTree κ}
    (hreadable : tree.Both (Tree.Readable registry))
    (hwf : tree.Both fun t => t.wellFormed = true) :
    readGuarded registry tree.toJson =
      if tree.Shallow then .ok (tree.reread registry) else .error .tooDeep := by
  obtain ⟨main, noBypass⟩ := tree
  cases noBypass with
  | none =>
      show readGuarded registry main.toJson =
        if main.toJson.nesting ≤ nestingLimit then .ok ⟨main.reread registry, none⟩
        else .error .tooDeep
      rw [readGuarded_toJson_main hreadable.1, read_toJson hreadable.1 hwf.1]
      split <;> rfl
  | some noBypass =>
      -- the main tree is written below a position, the restriction as an expression of its own
      have hread := read_toJson (hreadable.2 noBypass rfl) (hwf.2 noBypass rfl)
      have hmain := unit_eq_ite (stands_toJson hreadable.1 hwf.1) (nestingLimit - 1)
      have hsplit : readGuarded registry (GuardedTree.toJson ⟨main, some noBypass⟩) = do
          let noBypass ← read registry noBypass.toJson
          let main ← read registry (.object [("0", main.toJson)])
          return ⟨main, some noBypass⟩ := rfl
      have hshallow : GuardedTree.Shallow ⟨main, some noBypass⟩ ↔
          noBypass.toJson.nesting ≤ nestingLimit ∧ main.toJson.nesting ≤ nestingLimit - 1 := Iff.rfl
      rw [hsplit, read_position, hread, hmain]
      simp only [hshallow]
      by_cases hnoBypass : noBypass.toJson.nesting ≤ nestingLimit
      · by_cases hdepth : main.toJson.nesting ≤ nestingLimit - 1
        · rw [if_pos hnoBypass, if_pos hdepth, if_pos ⟨hnoBypass, hdepth⟩]
          rfl
        · rw [if_pos hnoBypass, if_neg hdepth, if_neg (mt And.right hdepth)]
          rfl
      · rw [if_neg hnoBypass, if_neg (mt And.left hnoBypass)]
        rfl

/-- Both trees of an accepted expression are normal. -/
theorem normal_of_readGuarded {registry : Registry κ} {raw : Json} {tree : GuardedTree κ}
    (h : readGuarded registry raw = .ok tree) : tree.Both (Tree.Normal registry) := by
  have hmain : ∀ {value : Json} {main : Tree κ}, read registry value = .ok main →
      GuardedTree.Both (Tree.Normal registry) ⟨main, none⟩ := by
    intro value main hread
    refine ⟨normal_of_read hread, ?_⟩
    intro noBypass hnone
    cases hnone
  unfold readGuarded at h
  split at h
  · obtain ⟨⟨restriction, others⟩, -, h⟩ := bind_eq_ok_iff.1 h
    cases restriction with
    | none =>
        obtain ⟨main, hread, h⟩ := bind_eq_ok_iff.1 h
        cases h
        exact hmain hread
    | some value =>
        obtain ⟨noBypass, hnoBypass, h⟩ := bind_eq_ok_iff.1 h
        obtain ⟨main, hread, h⟩ := bind_eq_ok_iff.1 h
        cases h
        refine ⟨normal_of_read hread, ?_⟩
        intro tree htree
        cases htree
        exact normal_of_read hnoBypass
  · obtain ⟨main, hread, h⟩ := bind_eq_ok_iff.1 h
    cases h
    exact hmain hread

/-- Both trees of an accepted expression carry the checkers of the registry. -/
theorem bound_of_readGuarded {registry : Registry κ} {raw : Json} {tree : GuardedTree κ}
    (h : readGuarded registry raw = .ok tree) : tree.Both (Tree.Bound registry) := by
  have hnormal := normal_of_readGuarded h
  exact ⟨hnormal.1.bound, fun noBypass hnoBypass => (hnormal.2 noBypass hnoBypass).bound⟩

end Expression

/-! ## Fixed points -/

/-- Guarded normal trees are kept when they are read again. -/
theorem GuardedTree.reread_eq_self {registry : Registry κ} {tree : GuardedTree κ}
    (hnormal : tree.Both (Tree.Normal registry)) : tree.reread registry = tree := by
  have hkeep : ∀ {t : Tree κ}, t.Normal registry → t.reread registry = t :=
    fun h => Tree.reread_eq_self h.canonical.compact h.bound
  obtain ⟨main, noBypass⟩ := tree
  cases noBypass with
  | none => rw [reread, hkeep hnormal.1, Option.map_none]
  | some noBypass =>
      rw [reread, hkeep hnormal.1, Option.map_some, hkeep (hnormal.2 noBypass rfl)]

namespace Expression

/-- A normal guarded tree is read back from its written form unless that is too deep. -/
theorem readGuarded_toJson_of_normal {registry : Registry κ} {tree : GuardedTree κ}
    (hnormal : tree.Both (Tree.Normal registry)) :
    readGuarded registry tree.toJson = if tree.Shallow then .ok tree else .error .tooDeep := by
  have hreadable : tree.Both (Tree.Readable registry) :=
    ⟨hnormal.1.canonical.readable, fun t ht => (hnormal.2 t ht).canonical.readable⟩
  have hwf : tree.Both fun t => t.wellFormed = true :=
    ⟨hnormal.1.wellFormed, fun t ht => (hnormal.2 t ht).wellFormed⟩
  rw [readGuarded_toJson hreadable hwf, GuardedTree.reread_eq_self hnormal]

/-- **Normal forms are fixed points unless they are too deep.**  The normal form of an accepted
expression is read as the very tree that it was written from, hence is its own normal form, exactly
if it nests no deeper than the limit; a restriction is read with the whole limit, and beside it the
main tree with one level less.  Otherwise the normal form is rejected as too deep. -/
theorem normal_form_fixed_point (registry : Registry κ) :
    (∀ raw tree, read registry raw = .ok tree →
      read registry tree.toJson =
        if tree.toJson.nesting ≤ nestingLimit then .ok tree else .error .tooDeep) ∧
    ∀ raw tree, readGuarded registry raw = .ok tree →
      readGuarded registry tree.toJson = if tree.Shallow then .ok tree else .error .tooDeep := by
  constructor
  · intro raw tree hread
    exact read_toJson_of_normal (normal_of_read hread)
  · intro raw tree hread
    exact readGuarded_toJson_of_normal (normal_of_readGuarded hread)

/-- A negation under a type, and two roles beside a restriction in its older spelling, have normal
forms that are read back. -/
theorem normal_form_fixed_point_roles :
    (∃ tree, read Registry.roles (.object [("role", .object [("not", .string "admin")])]) =
        .ok tree ∧ read Registry.roles tree.toJson = .ok tree) ∧
    ∃ tree, readGuarded Registry.roles
        (.object [("role", .array [.string "a", .string "b"]), ("no_bypass", .string "True")]) =
      .ok tree ∧ readGuarded Registry.roles tree.toJson = .ok tree := by
  have hread : read Registry.roles (.object [("role", .object [("not", .string "admin")])]) =
      .ok (.gate .not [.permission "role" "admin" ()]) := rfl
  have hguarded : readGuarded Registry.roles
      (.object [("role", .array [.string "a", .string "b"]), ("no_bypass", .string "True")]) =
      .ok ⟨.gate .or [.permission "role" "a" (), .permission "role" "b" ()],
        some (.constant true)⟩ := rfl
  have hkept := (normal_form_fixed_point Registry.roles).1 _ _ hread
  have hkeptGuarded := (normal_form_fixed_point Registry.roles).2 _ _ hguarded
  exact ⟨⟨_, hread, hkept.trans (if_pos (by decide))⟩,
    _, hguarded, hkeptGuarded.trans (if_pos (by decide))⟩

/-! ## Deep normal forms -/

/-- So many negations of the constant true. -/
def negations : Nat → Json
  | 0 => .bool true
  | n + 1 => .object [(Gate.not.keyword, negations n)]

/-- Each negation takes one level of an expression. -/
theorem siblings_negations (registry : Registry κ) (n : Nat) :
    siblings registry none n (negations n) = .ok [Tree.negated n] := by
  induction n with
  | zero => rfl
  | succ n ih =>
      have hkey : readKey registry none Gate.not.keyword (negations n) = .ok ⟨.not, none⟩ :=
        readKey_eq_ok_iff.2 (.gate (Key.ofText_keyword .not) rfl)
      rw [negations, siblings_object_succ, List.mapM_cons, List.mapM_nil, entry, hkey]
      show (siblings registry none n (negations n) >>= Tree.join .not) >>= _ = _
      rw [ih]
      rfl

/-- Up to the limit every number of negations is accepted. -/
theorem read_negations (registry : Registry κ) {n : Nat} (hn : n ≤ nestingLimit) :
    read registry (negations n) = .ok (Tree.negated n) := by
  obtain ⟨hnesting, hsiblings⟩ := siblings_eq_ok_iff.1 (siblings_negations registry n)
  refine read_eq_ok_iff.2 (Or.inr ⟨Nat.le_trans hnesting hn, [Tree.negated n], hsiblings, ?_⟩)
  rfl

/-- Sixty-five negations are accepted, but their normal form is too deep, also for a guarded
tree. -/
theorem deep_normal_form_rejected :
    ∃ raw : Json, ∃ tree : Tree Unit, read Registry.roles raw = .ok tree ∧
      read Registry.roles tree.toJson = .error .tooDeep ∧
      readGuarded Registry.roles raw = .ok ⟨tree, none⟩ ∧
      readGuarded Registry.roles (GuardedTree.toJson ⟨tree, none⟩) = .error .tooDeep := by
  -- sixty-five levels of the expression, twice as many of its normal form
  have hcount : 65 ≤ nestingLimit := by decide
  have hread := read_negations Registry.roles hcount
  have hguarded : readGuarded Registry.roles (negations 65) = .ok ⟨Tree.negated 65, none⟩ := by
    rw [negations, readGuarded_of_none (by decide), ← negations, hread]
    rfl
  have hdeep : ¬ (Tree.negated 65 : Tree Unit).toJson.nesting ≤ nestingLimit := by
    rw [Tree.nesting_toJson_negated]
    decide
  refine ⟨negations 65, Tree.negated 65, hread, ?_, hguarded, ?_⟩
  · rw [read_toJson_of_normal (normal_of_read hread), if_neg hdeep]
  · rw [readGuarded_toJson_of_normal (normal_of_readGuarded hguarded)]
    exact if_neg hdeep

end Expression

end Clearance
