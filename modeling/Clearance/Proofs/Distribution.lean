import Clearance.Proofs.RoundTrip

/-!
# Type keys distribute

A type key says the type of every text below it.  The key can therefore be left out if every text is
put under it instead: gates, positions and lists stay where they are, and the tree is the same.  The
level of nesting that the texts gain is the one that the outer key no longer takes.
-/

namespace Clearance

variable {κ : Type}

/-! ## Distribution -/

namespace Json

mutual

/-- The value in which every text is put under a key, at any depth. -/
def distribute (name : String) : Json → Json
  | string s => object [(name, string s)]
  | array items => array (distributeItems name items)
  | object entries => object (distributeEntries name entries)
  | value => value

/-- The items in which every text is put under a key. -/
def distributeItems (name : String) : List Json → List Json
  | [] => []
  | item :: rest => distribute name item :: distributeItems name rest

/-- The entries in whose values every text is put under a key. -/
def distributeEntries (name : String) : List (String × Json) → List (String × Json)
  | [] => []
  | (key, value) :: rest => (key, distribute name value) :: distributeEntries name rest

end

/-- A key is distributed over items one by one. -/
theorem distributeItems_eq_map (name : String) (items : List Json) :
    distributeItems name items = items.map (distribute name) := by
  induction items with
  | nil => rfl
  | cons item rest ih => rw [distributeItems, ih, List.map_cons]

/-- A key is distributed over entries one by one. -/
theorem distributeEntries_eq_map (name : String) (entries : List (String × Json)) :
    distributeEntries name entries =
      entries.map fun keyed => (keyed.1, distribute name keyed.2) := by
  induction entries with
  | nil => rfl
  | cons keyed rest ih => rw [distributeEntries, ih, List.map_cons]

/-- A collection stays one. -/
theorem isCollection_distribute {name : String} {value : Json} (h : value.isCollection = true) :
    (value.distribute name).isCollection = true := by
  cases value with
  | array items => rfl
  | object entries => rfl
  | null | bool b | number n | string s => cases h

end Json

/-! ## Reading what is distributed -/

namespace Expression

/-- Below a type no key names a type, so that every key is read outside the type as well. -/
theorem keyRead_distribute {registry : Registry κ} {name key : String} {checker : κ} {value : Json}
    {reading : Reading κ}
    (h : KeyRead registry (some (name, checker)) key value reading) :
    reading.scope = some (name, checker) ∧
      KeyRead registry none key (value.distribute name) ⟨reading.gate, none⟩ := by
  cases h with
  | position hkey => exact ⟨rfl, .position hkey⟩
  | gate hkey hvalue =>
      refine ⟨rfl, .gate hkey ?_⟩
      rw [Bool.or_eq_true] at hvalue ⊢
      exact hvalue.imp_right Json.isCollection_distribute
  | type hkey hscope hget => cases hscope

/-- What is read below a type is read outside it once the type is distributed, with one level more:
the level is spent at the texts. -/
theorem siblings_distribute {registry : Registry κ} {name : String} {checker : κ}
    (hget : registry.get? name = some checker) {value : Json} {room : Nat} {trees : List (Tree κ)}
    (h : siblings registry (some (name, checker)) room value = .ok trees) :
    siblings registry none (room + 1) (value.distribute name) = .ok trees := by
  induction value using Json.induction generalizing room trees with
  | null | bool b | number n => cases h
  | string s =>
      have hhas : registry.has name = true := by rw [Registry.has, hget, Option.isSome_some]
      obtain ⟨tree, htree, rfl⟩ := siblings_string_iff.1 (siblings_eq_ok_iff.1 h).2
      cases htree with
      | constant hword hscope => cases hscope
      | permission htext hscope =>
          -- only here the additional level is used: whatever room is left, the object has one
          cases hscope
          rw [Json.distribute, siblings_typed hhas htext checker, hget, Option.getD_some]
  | array items ih =>
      obtain ⟨room, rfl⟩ := exists_room_of_siblings rfl h
      rw [siblings_array_succ, mapM_eq_ok_iff] at h
      rw [Json.distribute, Json.distributeItems_eq_map, siblings_array_succ, mapM_eq_ok_iff,
        List.forall₂_map_left_iff]
      refine forall₂_imp_of_mem (fun item hitem tree hread => ?_) h
      obtain ⟨inputs, hinputs, hjoin⟩ := unit_eq_ok_iff.1 hread
      exact unit_eq_ok_iff.2 ⟨inputs, ih item hitem hinputs, hjoin⟩
  | object entries ih =>
      obtain ⟨room, rfl⟩ := exists_room_of_siblings rfl h
      rw [siblings_object_succ, mapM_eq_ok_iff] at h
      rw [Json.distribute, Json.distributeEntries_eq_map, siblings_object_succ, mapM_eq_ok_iff,
        List.forall₂_map_left_iff]
      refine forall₂_imp_of_mem (fun keyed hkeyed tree hread => ?_) h
      obtain ⟨reading, hkey, inputs, hinputs, hjoin⟩ := entry_eq_ok_iff.1 hread
      obtain ⟨hscope, hkey⟩ := keyRead_distribute hkey
      rw [hscope] at hinputs
      exact entry_eq_ok_iff.2 ⟨_, hkey, inputs, ih keyed hkeyed hinputs, hjoin⟩

/-- A type key alone in an object stands for what its value stands for below the type. -/
theorem unit_type {registry : Registry κ} {name : String} {checker : κ}
    (hget : registry.get? name = some checker) (room : Nat) (value : Json) :
    unit registry none (room + 1) (.object [(name, value)]) =
      unit registry (some (name, checker)) room value := by
  refine unit_single (readKey_eq_ok_iff.2 (.type ?_ rfl hget)) room
  exact ofText_eq_type_iff.2 ⟨rfl, isTypeKey_of_get? hget⟩

/-- **A type key distributes over what stands below it.**  If a value is accepted below a registered
type, then the value is accepted without the type key once each of its texts stands below that key
instead, and as the same tree; no text ends up too deep. -/
theorem type_key_distributes {registry : Registry κ} {name : String} {value : Json} {tree : Tree κ}
    (hhas : registry.has name = true)
    (hread : read registry (.object [(name, value)]) = .ok tree) :
    read registry (value.distribute name) = .ok tree := by
  obtain ⟨checker, hget⟩ := Option.isSome_iff_exists.1 hhas
  -- the object of the type key takes one level of the limit, which the texts get back
  rw [read_eq_unit (by simp [Json.kind]) (by simp), nestingLimit, unit_type hget] at hread
  obtain ⟨inputs, hinputs, hjoin⟩ := unit_eq_ok_iff.1 hread
  have hunit : unit registry none nestingLimit (value.distribute name) = .ok tree :=
    unit_eq_ok_iff.2 ⟨inputs, siblings_distribute hget hinputs, hjoin⟩
  exact read_eq_ok_iff.2 (Or.inr (unit_eq_ok_iff_stands.1 hunit))

set_option maxRecDepth 4000 in
/-- A conjunction with a negated role, beside a role in so many brackets that the limit on nesting is
reached: the negated role ends up below its own key, and the limit is reached again. -/
theorem type_key_distributes_at_limit :
    let brackets := fun inner : Json => Nat.repeat (fun value => Json.array [value]) 126 inner
    let role := fun text => Json.object [("role", .string text)]
    let value := fun leaf : String → Json => Json.object
      [("and", .array [leaf "a", .object [("not", leaf "b")]]), ("3", brackets (leaf "c"))]
    let tree := Tree.gate .or [.gate .and [.permission "role" "a" (),
      .gate .not [.permission "role" "b" ()]], .permission "role" "c" ()]
    Registry.roles.has "role" = true ∧
      read Registry.roles (.object [("role", value .string)]) = .ok tree ∧
      (Json.object [("role", value .string)]).nesting = nestingLimit ∧
      (value .string).distribute "role" = value role ∧ (value role).nesting = nestingLimit ∧
      read Registry.roles (value role) = .ok tree := by
  intro brackets role value tree
  have hread : read Registry.roles (.object [("role", value .string)]) = .ok tree := rfl
  exact ⟨rfl, hread, rfl, rfl, rfl, type_key_distributes rfl hread⟩

end Expression

end Clearance
