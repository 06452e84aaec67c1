import Clearance.Proofs.Reader
import Mathlib.Logic.Relation

/-!
# Wrappers

A collection of a single member stands for that member.  Wherever a value stands for one tree it can
therefore be put into an array of its own, or under a position of its own, as often as one likes:
the tree stays the same, up to the limit on nesting.  The value of a gate does not stand for one
tree but gives the inputs of the gate; only of a negation, which has one input, the value can be
wrapped.
-/

namespace Clearance

variable {κ : Type}

/-! ## Wrapping a value -/

/-- What a value is read for: the one tree that it stands for, or the inputs of a gate. -/
inductive Role
  | tree
  | inputs
  deriving DecidableEq

/-- What the value of an entry is read for. -/
def Role.ofKey (key : String) : Role :=
  match Key.ofText key with
  | .position | .type _ | .gate .not => tree
  | _ => inputs

/-- The second value is the first, read for what the role says, in which one value that stands for a
tree, be it the whole or at any depth, is put into a collection of its own. -/
inductive Wrapped : Role → Json → Json → Prop
  | array {value : Json} : Wrapped .tree value (.array [value])
  | position {key : String} {value : Json} (hkey : isPosition key = true) :
    Wrapped .tree value (.object [(key, value)])
  | item {role : Role} {before after : List Json} {value value' : Json}
      (h : Wrapped .tree value value') :
    Wrapped role (.array (before ++ value :: after)) (.array (before ++ value' :: after))
  | entry {role : Role} {before after : List (String × Json)} {key : String} {value value' : Json}
      (h : Wrapped (.ofKey key) value value') :
    Wrapped role (.object (before ++ (key, value) :: after))
      (.object (before ++ (key, value') :: after))

/-- Whatever is wrapped in a value, the value is a collection. -/
theorem Wrapped.isCollection {role : Role} {x y : Json} (h : Wrapped role x y) :
    y.isCollection = true := by
  cases h <;> rfl

/-! ## One step -/

namespace Expression

/-- Before a collection a key is read as it is before any value. -/
theorem KeyRead.of_isCollection {registry : Registry κ} {scope : Scope κ} {key : String}
    {value value' : Json} {reading : Reading κ} (h : KeyRead registry scope key value reading)
    (hvalue : value'.isCollection = true) : KeyRead registry scope key value' reading := by
  cases h with
  | position hkey => exact .position hkey
  | gate hkey => exact .gate hkey (by rw [hvalue, Bool.or_true])
  | type hkey hscope hget => exact .type hkey hscope hget

/-- If a value has the same siblings as before, or the tree that it stood for as its only sibling,
then it stands for that tree. -/
theorem Stands.of_siblings {registry : Registry κ} {scope : Scope κ} {value value' : Json}
    {tree : Tree κ} (h : Stands registry scope value tree)
    (hsiblings : ∀ trees, Siblings registry scope value trees →
      Siblings registry scope value' trees ∨
        ∀ tree, Tree.join .or trees = .ok tree → Siblings registry scope value' [tree]) :
    Stands registry scope value' tree := by
  obtain ⟨inputs, hinputs, hjoin⟩ := h
  rcases hsiblings inputs hinputs with hsame | hsingle
  · exact ⟨inputs, hsame, hjoin⟩
  · exact ⟨[tree], hsingle tree hjoin, rfl⟩

/-- The same for an entry, if its key says that the value is read for one tree wherever the siblings
are not the same. -/
theorem EntryStands.of_siblings {registry : Registry κ} {scope : Scope κ} {key : String}
    {value value' : Json} {tree : Tree κ} (h : EntryStands registry scope (key, value) tree)
    (hvalue : value'.isCollection = true)
    (hsiblings : ∀ scope trees, Siblings registry scope value trees →
      Siblings registry scope value' trees ∨ Role.ofKey key = .tree ∧
        ∀ tree, Tree.join .or trees = .ok tree → Siblings registry scope value' [tree]) :
    EntryStands registry scope (key, value') tree := by
  obtain ⟨reading, hkey, inputs, hinputs, hjoin⟩ := h
  refine ⟨reading, hkey.of_isCollection hvalue, ?_⟩
  rcases hsiblings reading.scope inputs hinputs with hsame | ⟨hrole, hsingle⟩
  · exact ⟨inputs, hsame, hjoin⟩
  · cases hkey with
    | position => exact ⟨[tree], hsingle tree hjoin, rfl⟩
    | type => exact ⟨[tree], hsingle tree hjoin, rfl⟩
    | @gate g hkey =>
        -- the only gate whose value is read for one tree is a negation, which has one input anyway
        have hnot : g = .not := by
          cases g <;> simp_all [Role.ofKey]
        subst hnot
        obtain ⟨only, rfl⟩ : ∃ only, inputs = [only] :=
          List.length_eq_one_iff.1 (Gate.admits_not_iff.1 (Tree.join_eq_ok_iff.1 hjoin).1)
        exact ⟨[only], hsingle only rfl, hjoin⟩

/-- A wrapped value has the same siblings as before; or it is read for one tree, and has the tree
that it stood for as its only sibling. -/
theorem siblings_of_wrapped {registry : Registry κ} {scope : Scope κ} {role : Role} {x y : Json}
    {trees : List (Tree κ)} (h : Wrapped role x y) (hx : Siblings registry scope x trees) :
    Siblings registry scope y trees ∨ role = .tree ∧
      ∀ tree, Tree.join .or trees = .ok tree → Siblings registry scope y [tree] := by
  induction h generalizing scope trees with
  | array =>
      refine Or.inr ⟨rfl, fun tree hjoin => siblings_array_iff.2 (.cons ?_ .nil)⟩
      exact ⟨trees, hx, hjoin⟩
  | position hkey =>
      refine Or.inr ⟨rfl, fun tree hjoin => siblings_object_iff.2 (.cons ?_ .nil)⟩
      exact ⟨_, .position (ofText_eq_position_iff.2 hkey), trees, hx, hjoin⟩
  | item _ ih =>
      refine Or.inl (siblings_array_iff.2 (forall₂_of_replaced ?_ (siblings_array_iff.1 hx)))
      exact fun tree hstands => hstands.of_siblings fun _ hread => (ih hread).imp_right And.right
  | entry hvalue ih =>
      refine Or.inl (siblings_object_iff.2 (forall₂_of_replaced ?_ (siblings_object_iff.1 hx)))
      exact fun tree hstands =>
        hstands.of_siblings hvalue.isCollection fun _ _ hread => ih hread

/-! ## Any number of steps -/

/-- However often it is wrapped, at whatever depth, a value stands for the same tree. -/
theorem stands_of_wrappings {registry : Registry κ} {scope : Scope κ} {x y : Json} {tree : Tree κ}
    (h : Relation.ReflTransGen (Wrapped .tree) x y) (hx : Stands registry scope x tree) :
    Stands registry scope y tree := by
  induction h with
  | refl => exact hx
  | tail _ hstep ih =>
      exact ih.of_siblings fun _ hread => (siblings_of_wrapped hstep hread).imp_right And.right

/-- **Wrappers are transparent.**  In an expression that is accepted, and that is not an empty
collection, any number of values that stand for one tree, the expression as a whole among them, can
be put into arrays or under positions of their own, any number of times.  The expression is then
accepted as the same tree, with the same checkers, unless it nests deeper than the limit; and in
that case nothing but its depth is wrong with it. -/
theorem wrappers_are_transparent {registry : Registry κ} {x y : Json} {tree : Tree κ}
    (hwrap : Relation.ReflTransGen (Wrapped .tree) x y) (hread : read registry x = .ok tree)
    (hempty : ¬ (x = .array [] ∨ x = .object [])) :
    read registry y = if y.nesting ≤ nestingLimit then .ok tree else .error .tooDeep := by
  rcases read_eq_ok_iff.1 hread with ⟨hx, -⟩ | ⟨-, hstands⟩
  · exact absurd hx hempty
  · exact read_eq_ite (stands_of_wrappings hwrap hstands)

/-- A negated role in brackets, two roles below a conjunction under a position, the value of the
type key in brackets and the whole expression under a position: four wrappers, and the same tree. -/
theorem wrappers_are_transparent_roles :
    let roles := Json.array [.string "c", .string "d"]
    let x := Json.object [("role", .object [("NOT", .string "a"),
      ("and", .array [.string "b", roles])])]
    let y := Json.object [("0", .object [("role", .array [.object [("NOT", .array [.string "a"]),
      ("and", .array [.string "b", .object [("07", roles)]])]])])]
    let tree := Tree.gate .or [.gate .not [.permission "role" "a" ()], .gate .and
      [.permission "role" "b" (), .gate .or [.permission "role" "c" (), .permission "role" "d" ()]]]
    Relation.ReflTransGen (Wrapped .tree) x y ∧ read Registry.roles x = .ok tree ∧
      ¬ (x = .array [] ∨ x = .object []) ∧ read Registry.roles y = .ok tree := by
  intro roles x y tree
  have htyped : ∀ {value value'}, Wrapped .tree value value' →
      Wrapped .tree (.object [("role", value)]) (.object [("role", value')]) := by
    intro value value' h
    have hrole : Role.ofKey "role" = .tree := by decide
    exact @Wrapped.entry _ [] [] "role" _ _ (by rwa [hrole])
  have hname : Wrapped (.ofKey "NOT") (.string "a") (.array [.string "a"]) := by
    have hnot : Role.ofKey "NOT" = .tree := by decide
    rw [hnot]
    exact .array
  have hroles : Wrapped (.ofKey "and") (.array [.string "b", roles])
      (.array [.string "b", .object [("07", roles)]]) :=
    @Wrapped.item _ [.string "b"] [] _ _ (.position (by decide))
  have hwrap : Relation.ReflTransGen (Wrapped .tree) x y := by
    refine .head (htyped (@Wrapped.entry _ [] _ "NOT" _ _ hname)) ?_
    refine .head (htyped (@Wrapped.entry _ [_] [] "and" _ _ hroles)) ?_
    refine .head (htyped .array) ?_
    exact .single (.position (by decide))
  have hempty : ¬ (x = .array [] ∨ x = .object []) := by simp [x]
  have hread : read Registry.roles x = .ok tree := rfl
  exact ⟨hwrap, hread, hempty, wrappers_are_transparent hwrap hread hempty⟩

end Expression

end Clearance
