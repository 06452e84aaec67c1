import Clearance.Proofs.Canonical
import Clearance.Proofs.Grammar

/-!
# Leaves

However an expression is nested, its tree has one leaf for each text and each boolean in it, in the
order in which they are written.  What a leaf is depends on its text and on the one type key above it,
and on nothing else: gates and positions arrange the leaves, and neither lose nor repeat any.
-/

namespace Clearance

variable {κ : Type}

/-! ## The leaves of a tree -/

namespace Tree

mutual

/-- The leaves of a tree, from left to right. -/
def leaves : Tree κ → List (Tree κ)
  | constant value => [constant value]
  | permission type value checker => [permission type value checker]
  | gate _ inputs => leavesEach inputs

/-- The leaves of trees, from left to right. -/
def leavesEach : List (Tree κ) → List (Tree κ)
  | [] => []
  | tree :: rest => leaves tree ++ leavesEach rest

end

/-- The leaves of trees are those of each. -/
theorem leavesEach_eq_flatMap (trees : List (Tree κ)) :
    leavesEach trees = trees.flatMap leaves := by
  induction trees with
  | nil => rfl
  | cons tree rest ih => rw [leavesEach, ih, List.flatMap_cons]

/-- Joining keeps the leaves, whether or not the gate is left out. -/
theorem leaves_of_join {g : Gate} {inputs : List (Tree κ)} {tree : Tree κ}
    (hjoin : join g inputs = .ok tree) : tree.leaves = inputs.flatMap leaves := by
  obtain ⟨-, rfl⟩ := join_eq_ok_iff.1 hjoin
  rcases joined_cases g inputs with hcompact | ⟨hg, only, rfl⟩
  · rw [joined_eq_gate hcompact, leaves, leavesEach_eq_flatMap]
  · rw [joined_singleton hg, List.flatMap_singleton]

end Tree

/-! ## The scalars of a value -/

namespace Json

mutual

/-- The values that are no collections, in the order written, each with the path to it; the value as a
whole stands at `path`. -/
def scalarsAt (path : Path) : Json → List (Path × Json)
  | array items => scalarsOfItems path items
  | object entries => scalarsOfEntries path entries
  | value => [(path, value)]

/-- The scalars of the items of an array. -/
def scalarsOfItems (path : Path) : List Json → List (Path × Json)
  | [] => []
  | item :: rest => scalarsAt (none :: path) item ++ scalarsOfItems path rest

/-- The scalars of the values of an object. -/
def scalarsOfEntries (path : Path) : List (String × Json) → List (Path × Json)
  | [] => []
  | (key, value) :: rest => scalarsAt (some key :: path) value ++ scalarsOfEntries path rest

end

/-- The scalars of a whole value. -/
def scalars (value : Json) : List (Path × Json) := value.scalarsAt []

/-- The scalars of items are those of each. -/
theorem scalarsOfItems_eq_flatMap (path : Path) (items : List Json) :
    scalarsOfItems path items = items.flatMap (scalarsAt (none :: path)) := by
  induction items with
  | nil => rfl
  | cons item rest ih => rw [scalarsOfItems, ih, List.flatMap_cons]

/-- The scalars of entries are those of each value. -/
theorem scalarsOfEntries_eq_flatMap (path : Path) (entries : List (String × Json)) :
    scalarsOfEntries path entries =
      entries.flatMap fun keyed => scalarsAt (some keyed.1 :: path) keyed.2 := by
  induction entries with
  | nil => rfl
  | cons keyed rest ih => rw [scalarsOfEntries, ih, List.flatMap_cons]

end Json

/-! ## Types above a place -/

instance (key : String) : Decidable (IsTypeKey key) :=
  inferInstanceAs (Decidable (isPosition key = false ∧ ∀ word ∈ Keyword.reserved, _ = false))

/-- The type keys on a path, the innermost first. -/
def typeKeys : Path → List String
  | [] => []
  | none :: outer => typeKeys outer
  | some key :: outer => if IsTypeKey key then key :: typeKeys outer else typeKeys outer

/-- A key that is read as anything but a type adds no type. -/
theorem typeKeys_of_ne_type {key : String} (hkey : ∀ name, Key.ofText key ≠ .type name)
    (outer : Path) : typeKeys (some key :: outer) = typeKeys outer := by
  rw [typeKeys, if_neg fun htype => hkey key (ofText_eq_type_iff.2 ⟨rfl, htype⟩)]

namespace Expression

/-- The leaf that a scalar gives: a boolean, or a word for one, the constant; any other text a
permission of the one type above it, with the checker of that type. -/
inductive LeafOf (registry : Registry κ) : Path × Json → Tree κ → Prop
  | bool {path : Path} {b : Bool} : LeafOf registry (path, .bool b) (.constant b)
  | word {path : Path} {s : String} {b : Bool} (hword : constantOfWord? s = some b) :
    LeafOf registry (path, .string s) (.constant b)
  | permission {path : Path} {s name : String} {checker : κ} (hword : constantOfWord? s = none)
    (htypes : typeKeys path = [name]) (hget : registry.get? name = some checker) :
    LeafOf registry (path, .string s) (.permission name s checker)

/-- A scope is that of a place if it holds the one type above the place, with its checker, or
nothing where there is no type above. -/
structure ScopeAt (registry : Registry κ) (path : Path) (scope : Scope κ) : Prop where
  types : typeKeys path = (scope.map Prod.fst).toList
  bound : ScopeBound registry scope

/-- Below a key the scope is that of the place below the key. -/
theorem scopeAt_of_keyRead {registry : Registry κ} {path : Path} {scope : Scope κ} {key : String}
    {value : Json} {reading : Reading κ} (hscope : ScopeAt registry path scope)
    (hkey : KeyRead registry scope key value reading) :
    ScopeAt registry (some key :: path) reading.scope := by
  refine ⟨?_, scopeBound_of_keyRead hscope.bound hkey⟩
  cases hkey with
  | position hkey => rw [typeKeys_of_ne_type (by simp [hkey]), hscope.types]
  | gate hkey => rw [typeKeys_of_ne_type (by simp [hkey]), hscope.types]
  | type hkey hnone =>
      rw [typeKeys, if_pos (ofText_eq_type_iff.1 hkey).2, hscope.types, hnone]
      rfl

/-! ## Leaves and scalars -/

/-- The leaves of the siblings of a value are those of its scalars. -/
theorem leaves_of_siblings {registry : Registry κ} {path : Path} {scope : Scope κ} {value : Json}
    {trees : List (Tree κ)} (hscope : ScopeAt registry path scope)
    (h : Siblings registry scope value trees) :
    List.Forall₂ (LeafOf registry) (value.scalarsAt path) (trees.flatMap Tree.leaves) := by
  induction value using Json.induction generalizing path scope trees with
  | null => exact absurd h not_siblings_null
  | number n => exact absurd h not_siblings_number
  | bool b =>
      obtain ⟨-, rfl⟩ := siblings_bool_iff.1 h
      exact .cons .bool .nil
  | string s =>
      obtain ⟨tree, htree, rfl⟩ := siblings_string_iff.1 h
      cases htree with
      | constant hword => exact .cons (.word hword) .nil
      | permission htext htype =>
          have hword := (isPermissionText_iff.1 htext).2
          have htypes := hscope.types
          rw [htype] at htypes
          exact .cons (.permission hword htypes (hscope.bound _ _ htype)) .nil
  | array items ih =>
      rw [Json.scalarsAt, Json.scalarsOfItems_eq_flatMap]
      refine forall₂_flatMap (siblings_array_iff.1 h) fun item hitem tree hstands => ?_
      obtain ⟨inputs, hinputs, hjoin⟩ := hstands
      rw [Tree.leaves_of_join hjoin]
      exact ih item hitem ⟨hscope.types, hscope.bound⟩ hinputs
  | object entries ih =>
      rw [Json.scalarsAt, Json.scalarsOfEntries_eq_flatMap]
      refine forall₂_flatMap (siblings_object_iff.1 h) fun keyed hkeyed tree hstands => ?_
      obtain ⟨reading, hkey, inputs, hinputs, hjoin⟩ := hstands
      rw [Tree.leaves_of_join hjoin]
      exact ih keyed hkeyed (scopeAt_of_keyRead hscope hkey) hinputs

/-- **Reading neither loses nor repeats a permission.**  Unless an expression is an empty collection,
the leaves of its tree, from left to right, are those of its scalars, in the order written and one for
one: a boolean or a word for one gives that constant, any other text a permission of the one type key
above it, with the checker that is registered for that type. -/
theorem leaves_are_scalars {registry : Registry κ} {raw : Json} {tree : Tree κ}
    (hread : read registry raw = .ok tree) (hempty : ¬ (raw = .array [] ∨ raw = .object [])) :
    List.Forall₂ (LeafOf registry) raw.scalars tree.leaves := by
  rcases read_eq_ok_iff.1 hread with ⟨hraw, -⟩ | ⟨-, inputs, hinputs, hjoin⟩
  · exact absurd hraw hempty
  · rw [Tree.leaves_of_join hjoin]
    exact leaves_of_siblings ⟨rfl, scopeBound_none registry⟩ hinputs

/-- Two roles, one of them negated, and a constant in brackets: three scalars at three places, and the
three leaves that they give. -/
theorem leaves_are_scalars_mixed :
    ∃ raw tree, read Registry.roles raw = .ok tree ∧ ¬ (raw = .array [] ∨ raw = .object []) ∧
      raw.scalars = [([none, some "role"], .string "a"),
        ([some "not", none, some "role"], .string "b"), ([none, none, some "1"], .string "True")] ∧
      tree.leaves = [.permission "role" "a" (), .permission "role" "b" (), .constant true] ∧
      List.Forall₂ (LeafOf Registry.roles) raw.scalars tree.leaves := by
  have hread : read Registry.roles
      (.object [("role", .array [.string "a", .object [("not", .string "b")]]),
        ("1", .array [.array [.string "True"]])]) =
      .ok (.gate .or [.gate .or [.permission "role" "a" (),
        .gate .not [.permission "role" "b" ()]], .constant true]) := rfl
  exact ⟨_, _, hread, by simp, rfl, rfl, leaves_are_scalars hread (by simp)⟩

end Expression

end Clearance
