import Clearance.Proofs.Restriction
import Clearance.Proofs.Text

/-!
# Checks of rendered expressions

An expression that is accepted holds no numbers, so that it is read back from its text unless the
text nests too many collections.  The limit for texts is one below that for expressions, and a
restriction of the bypass, which is read by itself, may be nested as deep as an expression: an
expression that is accepted can be up to two levels too deep for its own text to be read.
-/

namespace Clearance

variable {κ β : Type}

/-! ## What is accepted -/

/-- A value nests at most one level more than its members. -/
theorem Json.nesting_le_succ_iff {value : Json} {n : Nat} :
    value.nesting ≤ n + 1 ↔ ∀ step part, (step, part) ∈ value.members → part.nesting ≤ n := by
  cases value with
  | null | bool | number | string => simp [nesting, members]
  | array items =>
      rw [nesting, Nat.add_le_add_iff_right, nestingItems_le_iff, forall_mem_members_array]
  | object entries =>
      rw [nesting, Nat.add_le_add_iff_right, nestingEntries_le_iff, forall_mem_members_object]

namespace Expression

/-- No number is in an expression that is accepted. -/
theorem noNumber_of_read {registry : Registry κ} {raw : Json} {tree : Tree κ}
    (h : read registry raw = .ok tree) : raw.Everywhere fun part => part.kind ≠ .number := by
  rcases exists_read_iff_obeys.1 ⟨tree, h⟩ with (rfl | rfl) | ⟨-, hobeys, -⟩
  · exact Json.everywhere_array_iff.2 ⟨by simp [Json.kind], by simp⟩
  · exact Json.everywhere_object_iff.2 ⟨by simp [Json.kind], by simp⟩
  · intro path part hpart
    have hrule := (hobeys path part hpart).1
    cases part <;> simp_all [ValueRule, Json.kind]

/-- An expression that is accepted nests no deeper than the limit. -/
theorem nesting_le_of_read {registry : Registry κ} {raw : Json} {tree : Tree κ}
    (h : read registry raw = .ok tree) : raw.nesting ≤ nestingLimit := by
  rcases exists_read_iff_obeys.1 ⟨tree, h⟩ with (rfl | rfl) | ⟨hnesting, -, -⟩
  · decide
  · decide
  · exact hnesting

/-- An expression is of the kind of its main part, and each of its members is in that part or is the
restriction, under one of its keys. -/
theorem members_of_parts {raw main : Json} {restriction : Option Json}
    (h : parts raw = .ok (restriction, main)) :
    raw.kind = main.kind ∧ ∀ step part, (step, part) ∈ raw.members →
      (step, part) ∈ main.members ∨
        (∃ key, step = some key ∧ isNoBypass key = true) ∧ restriction = some part := by
  rcases parts_eq_ok_cases h with ⟨-, rfl⟩ | ⟨before, key, value, after, rfl, rfl, rfl, hkey, -⟩
  · exact ⟨rfl, fun _ _ hpart => Or.inl hpart⟩
  · refine ⟨rfl, ?_⟩
    intro step part hpart
    obtain ⟨keyed, hkeyed, heq⟩ := List.mem_map.1 hpart
    cases heq
    rw [List.mem_append, List.mem_cons] at hkeyed
    rcases hkeyed with hbefore | rfl | hafter
    · exact Or.inl (List.mem_map.2 ⟨keyed, List.mem_append_left _ hbefore, rfl⟩)
    · exact Or.inr ⟨⟨key, rfl, hkey⟩, rfl⟩
    · exact Or.inl (List.mem_map.2 ⟨keyed, List.mem_append_right _ hafter, rfl⟩)

/-- An expression nests no more collections than its main part may, if its restriction nests
fewer. -/
theorem nesting_le_of_parts {raw main : Json} {restriction : Option Json} {n : Nat} (hpos : 0 < n)
    (hparts : parts raw = .ok (restriction, main)) (hmain : main.nesting ≤ n)
    (hrestriction : ∀ value ∈ restriction, value.nesting < n) : raw.nesting ≤ n := by
  obtain ⟨m, rfl⟩ := Nat.exists_eq_add_one_of_ne_zero (Nat.ne_of_gt hpos)
  refine Json.nesting_le_succ_iff.2 ?_
  intro step part hpart
  rcases (members_of_parts hparts).2 step part hpart with hkept | ⟨-, htaken⟩
  · exact Json.nesting_le_succ_iff.1 hmain step part hkept
  · exact Nat.le_of_lt_succ (hrestriction part htaken)

/-- A guarded expression that is accepted is of the kind of a main part that is accepted, and each
of its members is in that part, or under a key of the restriction and accepted by itself. -/
theorem members_of_readGuarded {registry : Registry κ} {raw : Json} {tree : GuardedTree κ}
    (h : readGuarded registry raw = .ok tree) :
    ∃ main, read registry main = .ok tree.main ∧ raw.kind = main.kind ∧
      ∀ step part, (step, part) ∈ raw.members →
        (step, part) ∈ main.members ∨ (∃ key, step = some key ∧ isNoBypass key = true) ∧
          ∃ noBypass, read registry part = .ok noBypass := by
  obtain ⟨mainTree, noBypass⟩ := tree
  obtain ⟨restriction, main, hparts, hrestriction, hmain⟩ := readGuarded_eq_ok_iff.1 h
  obtain ⟨hkind, hmembers⟩ := members_of_parts hparts
  refine ⟨main, hmain, hkind, ?_⟩
  intro step part hpart
  rcases hmembers step part hpart with hpart | ⟨hkey, hpart⟩
  · exact Or.inl hpart
  · rw [hpart] at hrestriction
    cases hrestriction with
    | some hread => exact Or.inr ⟨hkey, _, hread⟩

/-- No number is in a guarded expression that is accepted. -/
theorem noNumber_of_readGuarded {registry : Registry κ} {raw : Json} {tree : GuardedTree κ}
    (h : readGuarded registry raw = .ok tree) :
    raw.Everywhere fun part => part.kind ≠ .number := by
  obtain ⟨main, hmain, hkind, hmembers⟩ := members_of_readGuarded h
  obtain ⟨hroot, hothers⟩ := Json.everywhere_iff.1 (noNumber_of_read hmain)
  refine Json.everywhere_iff.2 ⟨by rwa [hkind], ?_⟩
  intro step part hpart
  rcases hmembers step part hpart with hpart | ⟨-, noBypass, hread⟩
  · exact hothers step part hpart
  · exact noNumber_of_read hread

/-- A guarded expression that is accepted nests one level more than the limit at most. -/
theorem nesting_le_of_readGuarded {registry : Registry κ} {raw : Json} {tree : GuardedTree κ}
    (h : readGuarded registry raw = .ok tree) : raw.nesting ≤ nestingLimit + 1 := by
  obtain ⟨mainTree, noBypass⟩ := tree
  obtain ⟨restriction, main, hparts, hrestriction, hmain⟩ := readGuarded_eq_ok_iff.1 h
  -- the members of the main part have a level to spare, the restriction has none
  have hmain := Nat.le_succ_of_le (nesting_le_of_read hmain)
  refine nesting_le_of_parts (Nat.succ_pos _) hparts hmain ?_
  rintro value rfl
  cases hrestriction with
  | some hread => exact Nat.lt_succ_of_le (nesting_le_of_read hread)

end Expression

/-! ## Checks of texts -/

namespace Engine

/-- A rendered expression that is accepted is checked like the expression, unless its text nests too
many collections. -/
theorem checkText_render_of_buildTree {m : Type → Type} [Monad m] {engine : Engine κ β}
    (host : Host κ β m) {permissions : Json} {tree : GuardedTree κ}
    (hkeys : permissions.Everywhere Json.KeysDiffer)
    (hbuild : engine.buildTree permissions = .ok tree) (context : Json) :
    engine.checkText host permissions.render context =
      if permissions.nesting ≤ Json.textLimit then engine.check host permissions context
      else pure (.error .notJson) := by
  rw [checkText, Json.ofText?_render (Expression.noNumber_of_readGuarded hbuild) hkeys]
  by_cases hnesting : permissions.nesting ≤ Json.textLimit
  · rw [if_pos hnesting, if_pos hnesting]
  · rw [if_neg hnesting, if_neg hnesting]

/-- **A rendered expression is decided like the expression** if it nests no more collections than
texts may; otherwise its text is not read.  What is decided nests at most one collection more than
the limit for expressions. -/
theorem checkText_render (engine : Engine κ β) (host : Host κ β Id) {permissions context : Json}
    {granted : Bool} (hkeys : permissions.Everywhere Json.KeysDiffer)
    (hcheck : engine.check host permissions context = .ok granted) :
    permissions.nesting ≤ nestingLimit + 1 ∧
      engine.checkText host permissions.render context =
        if permissions.nesting ≤ Json.textLimit then .ok granted else .error .notJson := by
  obtain ⟨tree, hbuild, -⟩ := bind_eq_ok_iff.1
    ((checkWith_eq engine host permissions context engine.settings.allowBypass).symm.trans hcheck)
  refine ⟨Expression.nesting_le_of_readGuarded hbuild, ?_⟩
  rw [checkText_render_of_buildTree host hkeys hbuild, hcheck]
  rfl

/-- A negation under a type is decided the same as its text. -/
theorem checkText_render_negation :
    let engine : Engine Unit Unit := { registry := .roles }
    let permissions := Json.object [("role", .object [("not", .string "admin")])]
    engine.check auditing permissions .null = .ok true ∧
      engine.checkText auditing permissions.render .null = .ok true := by
  intro engine permissions
  have hkeys : permissions.Everywhere Json.KeysDiffer := by
    have hname : (Json.string "admin").Everywhere Json.KeysDiffer :=
      (Json.everywhere_scalar_iff rfl).2 trivial
    simp [permissions, Json.everywhere_object_iff, Json.KeysDiffer, hname]
  have hcheck : engine.check auditing permissions .null = .ok true := rfl
  exact ⟨hcheck, (checkText_render engine auditing hkeys hcheck).2.trans (if_pos (by decide))⟩

end Engine

/-! ## The deepest expressions -/

/-- An even number of negations of true is true. -/
theorem Tree.eval_negated (ask : Asking κ Id) (context : Json) (n : Nat) :
    (negated n : Tree κ).eval ask context = (n % 2 == 0) := by
  induction n with
  | zero => rfl
  | succ n ih =>
      have hrun : ∀ b : Bool, Gate.run (m := Id) .not [b] = !b := by
        intro b
        cases b <;> rfl
      rw [negated, eval, evalEach_eq_map, List.map_singleton, ih, hrun]
      rcases Nat.mod_two_eq_zero_or_one n with h | h
      · rw [h, show (n + 1) % 2 = 1 by omega]
        rfl
      · rw [h, show (n + 1) % 2 = 0 by omega]
        rfl

/-- So many negations nest as many collections. -/
theorem Expression.nesting_negations (n : Nat) : (negations n).nesting = n := by
  induction n with
  | zero => rfl
  | succ n ih => simp [negations, Json.nesting, Json.nestingEntries, ih]

/-- No key is repeated in negations. -/
theorem Expression.keysDiffer_negations (n : Nat) :
    (negations n).Everywhere Json.KeysDiffer := by
  induction n with
  | zero => exact (Json.everywhere_scalar_iff rfl).2 trivial
  | succ n ih =>
      exact Json.everywhere_object_iff.2 ⟨by simp [Json.KeysDiffer], List.forall_mem_singleton.2 ih⟩

namespace Engine

/-- An expression whose main tree grants access and that nests more collections than texts may is
granted access as a value, but its text is not read. -/
theorem checkText_render_of_deep {engine : Engine κ β} (host : Host κ β Id) {permissions : Json}
    {tree : GuardedTree κ} (hkeys : permissions.Everywhere Json.KeysDiffer)
    (hbuild : engine.buildTree permissions = .ok tree)
    (hgrants : tree.main.eval host.ask .null = true)
    (hdeep : Json.textLimit < permissions.nesting) :
    engine.check host permissions .null = .ok true ∧
      engine.checkText host permissions.render .null = .error .notJson := by
  constructor
  · exact (checkWith_eq_ok_true_iff engine host permissions .null engine.settings.allowBypass).2
      ⟨tree, hbuild, rfl, Access.grants_of_eval host engine.bypass .null _ hgrants⟩
  · rw [checkText_render_of_buildTree host hkeys hbuild, if_neg (Nat.not_le.2 hdeep)]
    rfl

/-- A hundred and twenty-eight negations grant access, but their text is not read; nor is the text of
an expression that has these negations as its restriction. -/
theorem deep_text_refused :
    let engine : Engine Unit Unit := {}
    let negations := Expression.negations 128
    let restricted := Json.object [("NO_BYPASS", negations)]
    (engine.check auditing negations .null = .ok true ∧
      engine.checkText auditing negations.render .null = .error .notJson) ∧
    (engine.check auditing restricted .null = .ok true ∧
      engine.checkText auditing restricted.render .null = .error .notJson) := by
  intro engine negations restricted
  have hread : Expression.read engine.registry negations = .ok (Tree.negated 128) :=
    Expression.read_negations engine.registry (by decide)
  have hnesting : negations.nesting = 128 := Expression.nesting_negations 128
  have hkeys : negations.Everywhere Json.KeysDiffer := Expression.keysDiffer_negations 128
  constructor
  · have hbuild : engine.buildTree negations = .ok ⟨Tree.negated 128, none⟩ := by
      have hnone : Expression.readGuarded engine.registry negations =
          (Expression.read engine.registry negations).map fun main => ⟨main, none⟩ :=
        Expression.readGuarded_of_none (by decide)
      rw [buildTree, hnone, hread]
      rfl
    refine checkText_render_of_deep auditing hkeys hbuild (Tree.eval_negated _ _ 128) ?_
    rw [hnesting]
    decide
  · have hbuild : engine.buildTree restricted =
        .ok ⟨.constant true, some (Tree.negated 128)⟩ := by
      have hone := @Expression.readGuarded_of_one Unit engine.registry [] [] "NO_BYPASS" negations
        (by decide) (by simp)
      rw [hread] at hone
      exact hone
    refine checkText_render_of_deep auditing ?_ hbuild rfl ?_
    · exact Json.everywhere_object_iff.2 ⟨by simp [Json.KeysDiffer],
        List.forall_mem_singleton.2 hkeys⟩
    · simp [restricted, Json.nesting, Json.nestingEntries, hnesting, Json.textLimit]

end Engine

end Clearance
