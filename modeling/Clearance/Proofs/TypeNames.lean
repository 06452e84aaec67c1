import Clearance.Proofs.Registration
import Clearance.Proofs.RoundTrip

/-!
# Names that are read as types

The names that can be registered are told by the rules for names, the keys of an expression by a
chain of tests.  Both tell the same texts from positions and keywords: a name that is not registered
can be registered exactly if the reader knows no type of that name, and then nothing else is read in
its place.
-/

namespace Clearance

variable {κ : Type}

namespace Expression

/-! ## Unknown types -/

/-- Joining never fails for a type. -/
theorem join_ne_unknownType {g : Gate} {inputs : List (Tree κ)} {name : String} :
    Tree.join g inputs ≠ .error (.unknownType name) := by
  intro h
  rw [Tree.join_eq_map] at h
  unfold Gate.checkCount at h
  split at h
  · cases h
  · split at h
    · split at h <;> cases h
    · cases h

/-- The type that a key fails for is that key, which is read as a type, and it is not registered. -/
theorem unknownType_of_readKey {registry : Registry κ} {scope : Scope κ} {key : String}
    {value : Json} {name : String} (h : readKey registry scope key value = .error (.unknownType name)) :
    Key.ofText key = .type name ∧ registry.has name = false := by
  unfold readKey at h
  split at h
  · cases h
  · cases h
  · split at h <;> cases h
  · cases h
  · rename_i own hkey
    split at h
    · cases h
    · rcases bind_eq_error_iff.1 h with hget | ⟨checker, -, h⟩
      · obtain ⟨hnone, hname⟩ := get_eq_error_iff.1 hget
        cases hname
        exact ⟨hkey, by rw [Registry.has, hnone, Option.isSome_none]⟩
      · cases h

/-- A type that the siblings of a value fail for is read as a type and not registered. -/
theorem unknownType_of_siblings {registry : Registry κ} {scope : Scope κ} {room : Nat}
    {value : Json} {name : String} (h : siblings registry scope room value = .error (.unknownType name)) :
    IsTypeKey name ∧ registry.has name = false := by
  induction value using Json.induction generalizing scope room with
  | null => cases h
  | number n => cases h
  | bool b =>
      rcases bind_eq_error_iff.1 h with h | ⟨tree, -, h⟩
      · cases scope <;> cases h
      · cases h
  | string s =>
      rcases bind_eq_error_iff.1 h with h | ⟨tree, -, h⟩
      · unfold text at h
        split at h
        · cases h
        · split at h
          · cases scope <;> cases h
          · cases scope <;> cases h
      · cases h
  | array items ih =>
      cases room with
      | zero => cases h
      | succ room =>
          rw [siblings_array_succ] at h
          obtain ⟨item, hitem, hfault⟩ := exists_mem_of_mapM_eq_error h
          rcases bind_eq_error_iff.1 hfault with hread | ⟨inputs, -, hjoin⟩
          · exact ih item hitem hread
          · exact absurd hjoin join_ne_unknownType
  | object entries ih =>
      cases room with
      | zero => cases h
      | succ room =>
          rw [siblings_object_succ] at h
          obtain ⟨keyed, hkeyed, hfault⟩ := exists_mem_of_mapM_eq_error h
          rcases bind_eq_error_iff.1 hfault with hread | ⟨reading, -, hfault⟩
          · obtain ⟨hkey, hfree⟩ := unknownType_of_readKey hread
            obtain ⟨rfl, htype⟩ := ofText_eq_type_iff.1 hkey
            exact ⟨htype, hfree⟩
          · rcases bind_eq_error_iff.1 hfault with hread | ⟨inputs, -, hjoin⟩
            · exact ih keyed hkeyed hread
            · exact absurd hjoin join_ne_unknownType

/-- A type that an expression fails for is read as a type and not registered. -/
theorem unknownType_of_read {registry : Registry κ} {raw : Json} {name : String}
    (h : read registry raw = .error (.unknownType name)) :
    IsTypeKey name ∧ registry.has name = false := by
  unfold read at h
  split at h
  · cases h
  · cases h
  · cases h
  · cases h
  · rcases bind_eq_error_iff.1 h with hread | ⟨inputs, -, hjoin⟩
    · exact unknownType_of_siblings hread
    · exact absurd hjoin join_ne_unknownType

/-- The reader knows no type of a name that is not registered exactly if it reads the name as a type,
whatever stands under it. -/
theorem read_entry_eq_unknownType_iff {registry : Registry κ} {name : String}
    (hfree : registry.has name = false) (value : Json) :
    read registry (.object [(name, value)]) = .error (.unknownType name) ↔ IsTypeKey name := by
  have hunit : read registry (.object [(name, value)]) =
      unit registry none nestingLimit (.object [(name, value)]) := rfl
  constructor
  · exact fun h => (unknownType_of_read h).1
  · intro htype
    have hget : registry.get name = .error (.unknownType name) := by
      have hnone : registry.get? name = none := by
        rw [← Option.not_isSome_iff_eq_none, ← Registry.has, hfree]
        exact Bool.false_ne_true
      exact get_eq_error_iff.2 ⟨hnone, rfl⟩
    have hkey : readKey registry none name value = .error (.unknownType name) := by
      rw [readKey, ofText_eq_type_iff.2 ⟨rfl, htype⟩]
      show (registry.get name >>= fun checker => _) = _
      rw [hget]
      rfl
    rw [hunit, unit, show nestingLimit = 127 + 1 from rfl, siblings_object_succ, List.mapM_cons,
      entry, hkey]
    rfl

/-- Under a registered type a text that can be a permission is read as one, with the checker of the
type. -/
theorem read_entry_of_get? {registry : Registry κ} {name : String} {checker : κ}
    (hget : registry.get? name = some checker) {s : String} (htext : IsPermissionText s) :
    read registry (.object [(name, .string s)]) = .ok (.permission name s checker) := by
  have hhas : registry.has name = true := by rw [Registry.has, hget, Option.isSome_some]
  have hsiblings := siblings_typed hhas htext checker (nestingLimit - 1)
  rw [hget, Option.getD_some] at hsiblings
  show unit registry none (nestingLimit - 1 + 1) (.object [(name, .string s)]) = _
  rw [unit, hsiblings]
  rfl

end Expression

/-! ## Registration and reading -/

namespace Registry

/-- **Names are told apart alike when they are registered and when they are read.**  A name that is
not registered can be registered exactly if it is not empty and the reader, whatever stands under it,
fails because there is no type of that name.  Once it is registered, every text that can be a
permission is read under it as a permission of that type, with its checker: no other reading of the
name comes first. -/
theorem registrable_iff_unknown_type (registry : Registry κ) (name : String) (checker : κ)
    (hfree : registry.has name = false) :
    (∀ value, (∃ next, (add name checker).run registry = .ok () next) ↔
      name ≠ "" ∧
        Expression.read registry (.object [(name, value)]) = .error (.unknownType name)) ∧
    ∀ next, (add name checker).run registry = .ok () next → ∀ s, IsPermissionText s →
      Expression.read next (.object [(name, .string s)]) = .ok (.permission name s checker) := by
  constructor
  · intro value
    rw [exists_add_iff, Expression.read_entry_eq_unknownType_iff hfree, nameFault?_eq_none_iff]
    simp [hfree]
  · intro next hadd s htext
    exact Expression.read_entry_of_get? (get?_add_self hadd) htext

/-- Beside roles, flags can be registered; a keyword in mixed case cannot, which the reader takes for
the gate and not for an unknown type. -/
theorem registrable_iff_unknown_type_flag :
    (∃ next, (add "flag" ()).run roles = .ok () next ∧
      Expression.read next (.object [("flag", .string "xOR")]) =
        .ok (.permission "flag" "xOR" ())) ∧
    Expression.read roles (.object [("flag", .string "x")]) = .error (.unknownType "flag") ∧
    ¬ (∃ next, (add "xOR" ()).run roles = .ok () next) ∧
    Expression.read roles (.object [("xOR", .string "x")]) =
      .error (.scalarUnderGate .xor .string) := by
  have hflag := registrable_iff_unknown_type roles "flag" () (by decide)
  have hxor := registrable_iff_unknown_type roles "xOR" () (by decide)
  have hread : Expression.read roles (.object [("xOR", .string "x")]) =
      .error (.scalarUnderGate .xor .string) := rfl
  obtain ⟨next, hadd⟩ := (hflag.1 (.string "x")).2 ⟨by decide, rfl⟩
  refine ⟨⟨next, hadd, hflag.2 next hadd "xOR" (by decide)⟩, ?_, ?_, hread⟩
  · exact ((hflag.1 (.string "x")).1 ⟨next, hadd⟩).2
  · rw [hxor.1 (.string "x"), hread]
    simp

end Registry

end Clearance
