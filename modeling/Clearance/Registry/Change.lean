import Clearance.Registry

/-!
# Changes of registries

Everything that changes a registry, as data, so that whole runs can be spoken of.  `Registry.next`
is what a change leaves, whether or not it fails, and `Registry.after` is what a run of changes
leaves.
-/

namespace Clearance

namespace Registry

variable {κ : Type}

/-- A change of a registry. -/
inductive Change (κ : Type)
  | add (name : String) (checker : κ)
  | remove (name : String)
  | set (types : List (String × κ))
  | clear

/-- Performs a change in place. -/
def Change.perform : Change κ → Mutation (Registry κ) Fault Unit
  | .add name checker => Registry.add name checker
  | .remove name => discard (Registry.remove name)
  | .set types => replaceAll types
  | .clear => Registry.clear

/-- The registry that a change leaves. -/
def next (registry : Registry κ) (change : Change κ) : Registry κ := change.perform.leaves registry

/-- The registry that a run of changes leaves. -/
def after (registry : Registry κ) (changes : List (Change κ)) : Registry κ :=
  changes.foldl next registry

/-- One more change changes the registry after those before it. -/
theorem after_concat (registry : Registry κ) (changes : List (Change κ)) (last : Change κ) :
    registry.after (changes ++ [last]) = (registry.after changes).next last := by
  rw [after, List.foldl_append]
  rfl

end Registry

end Clearance
