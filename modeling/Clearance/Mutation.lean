/-!
# Changes in place

A change of a state in place can fail part of the way, and what it has changed by then stays
changed.  That a change leaves nothing behind when it fails is true of some changes only, so it has
to be proved of each.
-/

namespace Clearance

/-- A change of a state of type `σ`, which comes to a value of type `α` or fails for a cause of type
`ε`.  Either way it leaves the state as far as it has been changed. -/
abbrev Mutation (σ ε α : Type) : Type := EStateM ε σ α

namespace Mutation

variable {σ ε ε' α : Type}

/-- The state that a change leaves, whether or not it fails. -/
def leaves (x : Mutation σ ε α) (s : σ) : σ :=
  match x.run s with
  | .ok _ left | .error _ left => left

/-- A change that succeeds leaves the state that it comes to. -/
theorem leaves_of_ok {x : Mutation σ ε α} {s left : σ} {a : α} (hrun : x.run s = .ok a left) :
    x.leaves s = left := by
  rw [leaves, hrun]

/-- A change that fails leaves the state that it has come to. -/
theorem leaves_of_error {x : Mutation σ ε α} {s left : σ} {cause : ε}
    (hrun : x.run s = .error cause left) : x.leaves s = left := by
  rw [leaves, hrun]

/-! ## Runs -/

/-- A change followed by another succeeds if both do, one after the other. -/
theorem run_bind_eq_ok_iff {γ : Type} {x : Mutation σ ε α} {f : α → Mutation σ ε γ} {s left : σ}
    {c : γ} :
    (x >>= f).run s = .ok c left ↔
      ∃ a between, x.run s = .ok a between ∧ (f a).run between = .ok c left := by
  rw [EStateM.run_bind]
  cases x.run s <;> simp [and_assoc]

/-- A change followed by another fails where the first fails, or where the second fails after it. -/
theorem run_bind_eq_error_iff {γ : Type} {x : Mutation σ ε α} {f : α → Mutation σ ε γ} {s left : σ}
    {cause : ε} :
    (x >>= f).run s = .error cause left ↔ x.run s = .error cause left ∨
      ∃ a between, x.run s = .ok a between ∧ (f a).run between = .error cause left := by
  rw [EStateM.run_bind]
  cases x.run s <;> simp [and_assoc]

/-- A change whose value is not wanted is the same change. -/
theorem run_discard (x : Mutation σ ε α) (s : σ) :
    (discard x).run s = match x.run s with
      | .ok _ left => .ok () left
      | .error cause left => .error cause left := by
  rw [EStateM.run, EStateM.run]
  show EStateM.map _ x s = _
  rw [EStateM.map]
  cases x s <;> rfl

/-- A change whose value is not wanted succeeds where it succeeded. -/
theorem run_discard_eq_ok_iff {x : Mutation σ ε α} {s left : σ} :
    (discard x).run s = .ok () left ↔ ∃ a, x.run s = .ok a left := by
  rw [run_discard]
  cases x.run s <;> simp

/-- A change whose value is not wanted fails where it failed. -/
theorem run_discard_eq_error_iff {x : Mutation σ ε α} {s left : σ} {cause : ε} :
    (discard x).run s = .error cause left ↔ x.run s = .error cause left := by
  rw [run_discard]
  cases x.run s <;> simp

/-- With its causes put in other words a change succeeds and fails as before, and leaves what it
left. -/
theorem run_adaptExcept (f : ε → ε') (x : Mutation σ ε α) (s : σ) :
    (EStateM.adaptExcept f x).run s = match x.run s with
      | .ok a left => .ok a left
      | .error cause left => .error (f cause) left := by
  rw [EStateM.run, EStateM.adaptExcept, EStateM.run]
  cases x s <;> rfl

/-- With its causes put in other words a change succeeds where it succeeded. -/
theorem run_adaptExcept_eq_ok_iff {f : ε → ε'} {x : Mutation σ ε α} {s left : σ} {a : α} :
    (EStateM.adaptExcept f x).run s = .ok a left ↔ x.run s = .ok a left := by
  rw [run_adaptExcept]
  cases x.run s <;> simp

/-- With its causes put in other words a change fails where it failed, and leaves what it left. -/
theorem run_adaptExcept_eq_error_iff {f : ε → ε'} {x : Mutation σ ε α} {s left : σ} {cause : ε'} :
    (EStateM.adaptExcept f x).run s = .error cause left ↔
      ∃ own, x.run s = .error own left ∧ f own = cause := by
  rw [run_adaptExcept]
  cases x.run s with
  | ok a found => simp
  | error own found =>
      constructor
      · rintro ⟨⟩
        exact ⟨own, rfl, rfl⟩
      · rintro ⟨_, ⟨⟩, rfl⟩
        rfl

/-- In which words the causes are put makes no difference to what a change leaves. -/
theorem leaves_adaptExcept (f : ε → ε') (x : Mutation σ ε α) (s : σ) :
    leaves (EStateM.adaptExcept f x) s = x.leaves s := by
  rw [leaves, leaves, run_adaptExcept]
  cases x.run s <;> rfl

/-! ## Atomic changes -/

/-- A change that leaves the state as it was whenever it fails. -/
def Atomic (x : Mutation σ ε α) : Prop :=
  ∀ s cause left, x.run s = .error cause left → left = s

/-- A change that cannot fail is atomic. -/
theorem atomic_modify (f : σ → σ) : Atomic (modify f : Mutation σ ε Unit) := by
  intro s cause left hrun
  cases hrun

/-- In which words the causes are put does not matter. -/
theorem Atomic.adaptExcept {x : Mutation σ ε α} (hx : Atomic x) (f : ε → ε') :
    Atomic (EStateM.adaptExcept f x : Mutation σ ε' α) := by
  intro s cause left hrun
  obtain ⟨own, hown, -⟩ := run_adaptExcept_eq_error_iff.1 hrun
  exact hx s own left hown

end Mutation

end Clearance
