import Clearance.Proofs.FixedPoint

/-!
# Reading written forms of guarded trees

The written form of a guarded tree is read as the same guarded tree exactly if both trees are
canonical and neither is written too deep.  The restriction is read as an expression of its own,
with the whole limit; the main tree beside it stands under a position and has one level less.
-/

namespace Clearance

variable {κ : Type}

/-! ## Sameness of guarded trees -/

namespace GuardedTree

/-- Both trees have a property if the main tree and the restriction have it. -/
theorem both_some_iff {P : Tree κ → Prop} {main noBypass : Tree κ} :
    GuardedTree.Both P ⟨main, some noBypass⟩ ↔ P main ∧ P noBypass := by
  simp [Both]

/-- Guarded trees with a restriction are the same if both trees are. -/
theorem same_some_iff {main main' noBypass noBypass' : Tree κ} :
    GuardedTree.same ⟨main, some noBypass⟩ ⟨main', some noBypass'⟩ = true ↔
      main.same main' = true ∧ noBypass.same noBypass' = true := by
  rw [GuardedTree.same, sameNoBypass, Bool.and_eq_true]

/-- Guarded trees without a restriction are the same if their main trees are. -/
theorem same_none_iff {main main' : Tree κ} :
    GuardedTree.same ⟨main, none⟩ ⟨main', none⟩ = true ↔ main.same main' = true := by
  rw [GuardedTree.same, sameNoBypass, Bool.and_true]

/-- What sameness carries from tree to tree it carries from guarded tree to guarded tree. -/
theorem both_of_same {P : Tree κ → Prop}
    (hsame : ∀ {a b : Tree κ}, a.same b = true → P a → P b) {a b : GuardedTree κ}
    (h : a.same b = true) (ha : a.Both P) : b.Both P := by
  obtain ⟨main, noBypass⟩ := a
  obtain ⟨main', noBypass'⟩ := b
  cases noBypass with
  | none =>
      cases noBypass' with
      | none => exact ⟨hsame (same_none_iff.1 h) ha.1, by simp⟩
      | some _ => simp [GuardedTree.same, sameNoBypass] at h
  | some noBypass =>
      cases noBypass' with
      | none => simp [GuardedTree.same, sameNoBypass] at h
      | some noBypass' =>
          obtain ⟨hmain, hnoBypass⟩ := same_some_iff.1 h
          rw [both_some_iff] at ha ⊢
          exact ⟨hsame hmain ha.1, hsame hnoBypass ha.2⟩

/-- A guarded tree of compact trees is kept but for its checkers. -/
theorem same_reread {registry : Registry κ} {tree : GuardedTree κ}
    (hcompact : tree.Both Tree.Compact) : (tree.reread registry).same tree = true := by
  obtain ⟨main, noBypass⟩ := tree
  have hmain : (main.reread registry).same main = true := Tree.same_reread hcompact.1
  cases noBypass with
  | none => exact same_none_iff.2 hmain
  | some noBypass => exact same_some_iff.2 ⟨hmain, Tree.same_reread (hcompact.2 noBypass rfl)⟩

end GuardedTree

/-! ## The round trip -/

namespace Expression

/-- **Image of the written forms of guarded trees.**  A guarded tree whose gates have numbers of
inputs that they admit is read back from its written form exactly if both its trees are canonical
and neither is written too deep: a main tree alone and a restriction may nest up to the limit, a
main tree beside a restriction up to one level less.  The written form of canonical trees that nest
deeper is too deep, and nothing else. -/
theorem readGuarded_toJson_iff_canonical (registry : Registry κ) (tree : GuardedTree κ)
    (hwf : tree.Both fun t => t.wellFormed = true) :
    ((∃ result, readGuarded registry tree.toJson = .ok result ∧ result.same tree = true) ↔
      tree.Both (Tree.Canonical registry) ∧ tree.Shallow) ∧
    (tree.Both (Tree.Canonical registry) → ¬ tree.Shallow →
      readGuarded registry tree.toJson = .error .tooDeep) := by
  have hreadable : tree.Both (Tree.Canonical registry) → tree.Both (Tree.Readable registry) :=
    fun h => ⟨h.1.readable, fun t ht => (h.2 t ht).readable⟩
  refine ⟨⟨?_, ?_⟩, ?_⟩
  · -- what is accepted is canonical, and so is what is the same
    rintro ⟨result, hread, hsame⟩
    have hnormal := normal_of_readGuarded hread
    have hresult : result.Both (Tree.Canonical registry) :=
      ⟨hnormal.1.canonical, fun t ht => (hnormal.2 t ht).canonical⟩
    have hcanonical := GuardedTree.both_of_same
      (fun h => (Tree.canonical_iff_of_same h).1) hsame hresult
    refine ⟨hcanonical, ?_⟩
    rw [readGuarded_toJson (hreadable hcanonical) hwf] at hread
    by_contra hdeep
    rw [if_neg hdeep] at hread
    cases hread
  · rintro ⟨hcanonical, hshallow⟩
    have hcompact : tree.Both Tree.Compact :=
      ⟨hcanonical.1.compact, fun t ht => (hcanonical.2 t ht).compact⟩
    refine ⟨tree.reread registry, ?_, GuardedTree.same_reread hcompact⟩
    rw [readGuarded_toJson (hreadable hcanonical) hwf, if_pos hshallow]
  · intro hcanonical hdeep
    rw [readGuarded_toJson (hreadable hcanonical) hwf, if_neg hdeep]

/-- Sixty-three negations beside sixty-four in the restriction are read back; the other way round
they are too deep. -/
theorem readGuarded_toJson_iff_canonical_negated :
    (∃ result, readGuarded Registry.roles
        (GuardedTree.toJson ⟨Tree.negated 63, some (Tree.negated 64 : Tree Unit)⟩) = .ok result ∧
      result.same ⟨Tree.negated 63, some (Tree.negated 64)⟩ = true) ∧
    readGuarded Registry.roles
        (GuardedTree.toJson ⟨Tree.negated 64, some (Tree.negated 63 : Tree Unit)⟩) =
      .error .tooDeep := by
  have hwf : ∀ n n' : Nat, GuardedTree.Both (fun t => t.wellFormed = true)
      ⟨Tree.negated n, some (Tree.negated n' : Tree Unit)⟩ := by
    intro n n'
    exact GuardedTree.both_some_iff.2 ⟨Tree.wellFormed_negated n, Tree.wellFormed_negated n'⟩
  have hcanonical : ∀ n n' : Nat, GuardedTree.Both (Tree.Canonical Registry.roles)
      ⟨Tree.negated n, some (Tree.negated n')⟩ := by
    intro n n'
    exact GuardedTree.both_some_iff.2 ⟨Tree.canonical_negated _ n, Tree.canonical_negated _ n'⟩
  have hshallow : ∀ n n' : Nat,
      GuardedTree.Shallow ⟨Tree.negated n, some (Tree.negated n' : Tree Unit)⟩ ↔
        2 * n' ≤ nestingLimit ∧ 2 * n ≤ nestingLimit - 1 := by
    intro n n'
    simp only [GuardedTree.Shallow, Tree.nesting_toJson_negated]
  constructor
  · refine (readGuarded_toJson_iff_canonical Registry.roles _ (hwf 63 64)).1.2
      ⟨hcanonical 63 64, ?_⟩
    rw [hshallow]
    decide
  · refine (readGuarded_toJson_iff_canonical Registry.roles _ (hwf 64 63)).2
      (hcanonical 64 63) ?_
    rw [hshallow]
    decide

/-- A permission whose type is the keyword of the restriction is written as a restriction: it is
accepted, but as another guarded tree. -/
example : readGuarded Registry.roles
      (GuardedTree.toJson ⟨.permission "NO_BYPASS" "TRUE" (), none⟩) =
    .ok ⟨.constant true, some (.constant true)⟩ := rfl

end Expression

end Clearance
