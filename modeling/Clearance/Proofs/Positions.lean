import Clearance.Proofs.Restriction
import Clearance.Proofs.Grammar

/-!
# Arrays and positions

An array can be written as an object whose keys are positions.  The positions are not compared: the
order of the entries counts.  Wherever and however often an expression is rewritten so, the reader
gives the same result, be it a tree or a fault.
-/

namespace Clearance

variable {κ : Type}

/-! ## Writing arrays with positions -/

/-- Values that differ in some arrays, at any depth, that are written as objects with the same items in
the same order under positions. -/
inductive Repositioned : Json → Json → Prop
  | scalar {value : Json} (hscalar : value.isCollection = false) : Repositioned value value
  | array {items items' : List Json} (hitems : List.Forall₂ Repositioned items items') :
    Repositioned (.array items) (.array items')
  | object {entries entries' : List (String × Json)}
      (hkeys : entries.map Prod.fst = entries'.map Prod.fst)
      (hvalues : List.Forall₂ Repositioned (entries.map Prod.snd) (entries'.map Prod.snd)) :
    Repositioned (.object entries) (.object entries')
  | positions {items : List Json} {entries : List (String × Json)}
      (hpositions : ∀ keyed ∈ entries, isPosition keyed.1 = true)
      (hvalues : List.Forall₂ Repositioned items (entries.map Prod.snd)) :
    Repositioned (.array items) (.object entries)

/-! ## Siblings -/

namespace Expression

/-- An object with positions for keys is read as the array of its values. -/
theorem siblings_positions (registry : Registry κ) (scope : Scope κ) (room : Nat)
    {entries : List (String × Json)} (hpositions : ∀ keyed ∈ entries, isPosition keyed.1 = true) :
    siblings registry scope room (.object entries) =
      siblings registry scope room (.array (entries.map Prod.snd)) := by
  cases room with
  | zero => rw [siblings_zero registry scope rfl, siblings_zero registry scope rfl]
  | succ room =>
      rw [siblings_object_succ, siblings_array_succ]
      refine mapM_eq_of_forall₂ (List.forall₂_map_right_iff.2 (List.forall₂_same.2 ?_))
      intro keyed hkeyed
      have hkey := ofText_eq_position_iff.2 (hpositions keyed hkeyed)
      exact entry_eq_unit (readKey_eq_ok_iff.2 (.position hkey)) room

/-- Arrays are read alike if their items are, one by one. -/
theorem siblings_array_eq {registry : Registry κ} {scope : Scope κ} {items items' : List Json}
    (h : List.Forall₂ (fun item item' => ∀ room,
      siblings registry scope room item = siblings registry scope room item') items items')
    (room : Nat) :
    siblings registry scope room (.array items) = siblings registry scope room (.array items') := by
  cases room with
  | zero => rw [siblings_zero registry scope rfl, siblings_zero registry scope rfl]
  | succ room =>
      rw [siblings_array_succ, siblings_array_succ]
      refine mapM_eq_of_forall₂ (h.imp fun item item' hitem => ?_)
      rw [unit, unit, hitem]

/-- Objects are read alike if their keys are, and their values whatever the type above them. -/
theorem siblings_object_eq {registry : Registry κ} {scope : Scope κ}
    {entries entries' : List (String × Json)}
    (h : List.Forall₂ (fun keyed keyed' =>
      readKey registry scope keyed.1 keyed.2 = readKey registry scope keyed'.1 keyed'.2 ∧
      ∀ inner room,
        siblings registry inner room keyed.2 = siblings registry inner room keyed'.2)
      entries entries') (room : Nat) :
    siblings registry scope room (.object entries) =
      siblings registry scope room (.object entries') := by
  cases room with
  | zero => rw [siblings_zero registry scope rfl, siblings_zero registry scope rfl]
  | succ room =>
      rw [siblings_object_succ, siblings_object_succ]
      refine mapM_eq_of_forall₂ (h.imp fun keyed keyed' hkeyed => ?_)
      simp only [entry, hkeyed.1, hkeyed.2]

/-- A key does not tell collections from each other. -/
theorem readKey_collection {value value' : Json} (hvalue : value.isCollection = true)
    (hvalue' : value'.isCollection = true) (registry : Registry κ) (scope : Scope κ)
    (key : String) :
    readKey registry scope key value = readKey registry scope key value' := by
  simp only [readKey, hvalue, hvalue', Bool.or_true, if_true]

/-- A collection is read as a whole expression as it is read anywhere, unless it is empty. -/
theorem read_collection {raw : Json} (hraw : raw.isCollection = true) (registry : Registry κ) :
    read registry raw =
      if raw.width = 0 then .ok (.constant true) else unit registry none nestingLimit raw := by
  cases raw with
  | array items => cases items <;> rfl
  | object entries => cases entries <;> rfl
  | null | bool b | number n | string s => cases hraw

end Expression

namespace Repositioned

variable {x y : Json}

/-- The same keys are read before values that differ in positions. -/
theorem readKey_eq (h : Repositioned x y) (registry : Registry κ)
    (scope : Expression.Scope κ) (key : String) :
    Expression.readKey registry scope key x = Expression.readKey registry scope key y := by
  cases h with
  | scalar => rfl
  | array | object | positions =>
      exact Expression.readKey_collection rfl rfl registry scope key

/-- Values that differ in positions have the same siblings, whatever the type above them and the room
there is. -/
theorem siblings_eq (h : Repositioned x y) (registry : Registry κ) :
    ∀ scope room, Expression.siblings registry scope room x =
      Expression.siblings registry scope room y := by
  induction x using Json.induction generalizing y with
  | null | bool b | number n | string s =>
      cases h with
      | scalar => exact fun scope room => rfl
  | array items ih =>
      intro scope
      -- related items give the same siblings as an array, and positions only name the items
      have hitems : ∀ {items'}, List.Forall₂ Repositioned items items' → ∀ room,
          Expression.siblings registry scope room (.array items) =
            Expression.siblings registry scope room (.array items') := fun hitems =>
        Expression.siblings_array_eq
          (forall₂_imp_of_mem (fun item hitem _ h => ih item hitem h scope) hitems)
      intro room
      cases h with
      | scalar => rfl
      | array h => exact hitems h room
      | positions hpositions h =>
          rw [Expression.siblings_positions registry scope room hpositions]
          exact hitems h room
  | object entries ih =>
      intro scope room
      cases h with
      | scalar => rfl
      | object hkeys hvalues =>
          have hentries := forall₂_entries_iff.2 ⟨hkeys, hvalues⟩
          refine Expression.siblings_object_eq (forall₂_imp_of_mem ?_ hentries) room
          intro keyed hkeyed keyed' h
          rw [h.1]
          exact ⟨h.2.readKey_eq registry scope keyed'.1, ih keyed hkeyed h.2⟩

/-! ## Whole expressions -/

/-- Values that differ in positions give equally many inputs. -/
theorem width_eq (h : Repositioned x y) : x.width = y.width := by
  cases h with
  | scalar => rfl
  | array hitems => rw [Json.width_array, Json.width_array, hitems.length_eq]
  | object hkeys hvalues =>
      rw [Json.width_object, Json.width_object, (forall₂_entries_iff.2 ⟨hkeys, hvalues⟩).length_eq]
  | positions hpositions hvalues =>
      rw [Json.width_array, Json.width_object, hvalues.length_eq, List.length_map]

/-- Expressions that differ in positions are read alike. -/
theorem read_eq (h : Repositioned x y) (registry : Registry κ) :
    Expression.read registry x = Expression.read registry y := by
  have hunit : Expression.unit registry none nestingLimit x =
      Expression.unit registry none nestingLimit y := by
    rw [Expression.unit, Expression.unit, h.siblings_eq]
  have hwidth := h.width_eq
  cases h with
  | scalar => rfl
  | array | object | positions =>
      rw [Expression.read_collection rfl, Expression.read_collection rfl, hwidth, hunit]

/-- Expressions that differ in positions have parts together, and the parts differ in positions. -/
theorem parts_rel (h : Repositioned x y) :
    (∃ fault, Expression.parts x = .error fault ∧ Expression.parts y = .error fault) ∨
      ∃ restriction main restriction' main', Expression.parts x = .ok (restriction, main) ∧
        Expression.parts y = .ok (restriction', main') ∧
        Option.Rel Repositioned restriction restriction' ∧ Repositioned main main' := by
  cases h with
  | scalar hscalar =>
      cases x with
      | array | object => cases hscalar
      | null | bool | number | string =>
          exact Or.inr ⟨none, _, none, _, rfl, rfl, .none, .scalar rfl⟩
  | array hitems => exact Or.inr ⟨none, _, none, _, rfl, rfl, .none, .array hitems⟩
  | @positions items entries hpositions hvalues =>
      -- the object is searched for a restriction, the array is not; no position is the key of one
      have hnone : ∀ keyed ∈ entries, Expression.isNoBypass keyed.1 = false := by
        intro keyed hkeyed
        refine Expression.isNoBypass_eq_false ?_
        rw [ofText_eq_position_iff.2 (hpositions keyed hkeyed)]
        simp
      have hparts : Expression.parts (.object entries) = .ok (none, .object entries) := by
        rw [Expression.parts, Expression.splitNoBypass_of_none hnone]
        rfl
      exact Or.inr ⟨none, _, none, _, rfl, hparts, .none, .positions hpositions hvalues⟩
  | @object entries entries' hkeys hvalues =>
      rw [Expression.parts, Expression.parts]
      rcases Expression.splitNoBypass_cases (forall₂_entries_iff.2 ⟨hkeys, hvalues⟩) with
        ⟨fault, hx, hy⟩ | ⟨restriction, others, restriction', others', hx, hy, hrel, hothers⟩
      · rw [hx, hy]
        exact Or.inl ⟨fault, rfl, rfl⟩
      · obtain ⟨hkeys, hvalues⟩ := forall₂_entries_iff.1 hothers
        rw [hx, hy]
        exact Or.inr ⟨_, _, _, _, rfl, rfl, hrel, .object hkeys hvalues⟩

/-- Guarded expressions that differ in positions are read alike. -/
theorem readGuarded_eq (h : Repositioned x y) (registry : Registry κ) :
    Expression.readGuarded registry x = Expression.readGuarded registry y := by
  rw [Expression.readGuarded_eq, Expression.readGuarded_eq]
  rcases h.parts_rel with ⟨fault, hx, hy⟩ | ⟨restriction, main, restriction', main', hx, hy, hrel,
    hmain⟩
  · rw [hx, hy]
  · have hrestriction : restriction.mapM (Expression.read registry) =
        restriction'.mapM (Expression.read registry) := by
      cases hrel with
      | none => rfl
      | some hvalue => simp only [Option.mapM_some, hvalue.read_eq registry]
    rw [hx, hy]
    show (do
      let noBypass ← restriction.mapM (Expression.read registry)
      let main ← Expression.read registry main
      return (⟨main, noBypass⟩ : GuardedTree κ)) = _
    rw [hrestriction, hmain.read_eq registry]
    rfl

end Repositioned

namespace Expression

/-- **Arrays and objects with positions are the same.**  If some arrays of an expression, at any depth,
are written as objects with the same items in the same order under positions, then the expression is
read as before, also as a guarded expression: as the same tree, or with the same fault. -/
theorem arrays_are_positions {x y : Json} (h : Repositioned x y) (registry : Registry κ) :
    read registry x = read registry y ∧ readGuarded registry x = readGuarded registry y :=
  ⟨h.read_eq registry, h.readGuarded_eq registry⟩

/-- Roles in an array below a type, the last of them negated or, wrongly, typed again: with positions
for brackets, in descending order or twice the same number, the tree and the fault are the same. -/
theorem arrays_are_positions_below_type :
    let x := fun last => Json.array [.object [("role", .array [.string "a", last])], .bool true]
    let y := fun last => Json.object
      [("7", .object [("role", .object [("10", .string "a"), ("2", last)])]), ("07", .bool true)]
    let negated := Json.object [("not", .array [.string "b"])]
    let negated' := Json.object [("not", .object [("0", .string "b")])]
    let typed := Json.object [("role", .string "b")]
    (Repositioned (x negated) (y negated') ∧
      read Registry.roles (x negated) = read Registry.roles (y negated') ∧
      readGuarded Registry.roles (x negated) = readGuarded Registry.roles (y negated') ∧
      read Registry.roles (y negated') = .ok (.gate .or [.gate .or [.permission "role" "a" (),
        .gate .not [.permission "role" "b" ()]], .constant true])) ∧
    (Repositioned (x typed) (y typed) ∧
      read Registry.roles (x typed) = read Registry.roles (y typed) ∧
      readGuarded Registry.roles (x typed) = readGuarded Registry.roles (y typed) ∧
      readGuarded Registry.roles (y typed) = .error (.nestedType "role" "role")) := by
  intro x y negated negated' typed
  have hbelow : ∀ {last last'}, Repositioned last last' → Repositioned (x last) (y last') := by
    intro last last' hlast
    have hroles : Repositioned (.array [.string "a", last])
        (.object [("10", .string "a"), ("2", last')]) :=
      .positions (by simp; decide) (.cons (.scalar rfl) (.cons hlast .nil))
    exact .positions (by simp; decide)
      (.cons (.object rfl (.cons hroles .nil)) (.cons (.scalar rfl) .nil))
  have hnegated : Repositioned negated negated' :=
    .object rfl (.cons (.positions (by simp; decide) (.cons (.scalar rfl) .nil)) .nil)
  have htyped : Repositioned typed typed := .object rfl (.cons (.scalar rfl) .nil)
  obtain ⟨htree, hguarded⟩ := arrays_are_positions (hbelow hnegated) Registry.roles
  obtain ⟨hfault, hguardedFault⟩ := arrays_are_positions (hbelow htyped) Registry.roles
  exact ⟨⟨hbelow hnegated, htree, hguarded, rfl⟩, hbelow htyped, hfault, hguardedFault, rfl⟩

end Expression

end Clearance
