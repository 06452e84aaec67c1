import Clearance.Json
import Clearance.Registry
import Clearance.Tree

/-!
# Reading expressions

Every item of an array and every entry of an object is one sibling.  Where a collection is the value
of a gate its siblings are the inputs of that gate; where it stands for a single value they are
joined by a disjunction.  A type key says of which type the permissions below it are.

`Expression.read` reads one tree; `Expression.readGuarded` first takes out the top-level entry that
restricts the bypass.
-/

namespace Clearance.Expression

variable {κ : Type}

/-- The type that permissions are of, with its checker, or nothing outside every type. -/
abbrev Scope (κ : Type) : Type := Option (String × κ)

/-! ## Single values -/

/-- A constant, which must stand outside every type. -/
def constant (scope : Scope κ) (value : Bool) : Except Fault (Tree κ) :=
  match scope with
  | some (name, _) => .error (.constantUnderType name)
  | none => .ok (.constant value)

/-- A text: a constant if it is a word for one, and otherwise a permission of the type in scope. -/
def text (scope : Scope κ) (value : String) : Except Fault (Tree κ) :=
  if value.toList.isEmpty then .error .emptyPermission
  else match constantOfWord? value with
    | some truth => constant scope truth
    | none => match scope with
      | some (name, checker) => .ok (.permission name value checker)
      | none => .error (.untyped value)

/-! ## Keys -/

/-- How the value of an entry is read: the gate that joins its siblings, and the scope in it. -/
structure Reading (κ : Type) where
  gate : Gate
  scope : Scope κ

/-- What the key of an entry says about the value. -/
def readKey (registry : Registry κ) (scope : Scope κ) (key : String) (value : Json) :
    Except Fault (Reading κ) :=
  match Key.ofText key with
  | .position => .ok ⟨.or, scope⟩
  | .noBypass => .error .misplacedNoBypass
  | .gate gate =>
    if gate.takesScalar || value.isCollection then .ok ⟨gate, scope⟩
    else .error (.scalarUnderGate gate value.kind)
  | .constant _ => .error (.constantAsKey key)
  | .type name =>
    match scope with
    | some (outer, _) => .error (.nestedType outer name)
    | none => do
      let checker ← registry.get name
      return ⟨.or, some (name, checker)⟩

/-! ## Collections -/

mutual

/-- The siblings of a value, inside which `room` further collections may be nested. -/
def siblings (registry : Registry κ) (scope : Scope κ) (room : Nat) :
    Json → Except Fault (List (Tree κ))
  | .null => .error (.notAPermission .null)
  | .number _ => .error (.notAPermission .number)
  | .bool value => return [← constant scope value]
  | .string value => return [← text scope value]
  | .array items =>
    match room with
    | 0 => .error .tooDeep
    | room + 1 => siblingsOfItems registry scope room items
  | .object entries =>
    match room with
    | 0 => .error .tooDeep
    | room + 1 => siblingsOfEntries registry scope room entries

/-- One sibling for each item. -/
def siblingsOfItems (registry : Registry κ) (scope : Scope κ) (room : Nat) :
    List Json → Except Fault (List (Tree κ))
  | [] => .ok []
  | item :: rest => do
    let first ← Tree.join .or (← siblings registry scope room item)
    return first :: (← siblingsOfItems registry scope room rest)

/-- One sibling for each entry. -/
def siblingsOfEntries (registry : Registry κ) (scope : Scope κ) (room : Nat) :
    List (String × Json) → Except Fault (List (Tree κ))
  | [] => .ok []
  | (key, value) :: rest => do
    let reading ← readKey registry scope key value
    let first ← Tree.join reading.gate (← siblings registry reading.scope room value)
    return first :: (← siblingsOfEntries registry scope room rest)

end

/-- A value that stands for one tree. -/
def unit (registry : Registry κ) (scope : Scope κ) (room : Nat) (value : Json) :
    Except Fault (Tree κ) := do
  Tree.join .or (← siblings registry scope room value)

/-! ## Whole expressions -/

/-- The tree of an expression.  An empty collection grants access. -/
def read (registry : Registry κ) : Json → Except Fault (Tree κ)
  | .null => .error (.notAnExpression .null)
  | .number _ => .error (.notAnExpression .number)
  | .array [] => .ok (.constant true)
  | .object [] => .ok (.constant true)
  | value => unit registry none nestingLimit value

/-- Whether a key of the top level is that of the bypass restriction. -/
def isNoBypass (key : String) : Bool := key == Keyword.noBypass || key == Keyword.noBypassOlder

/-- Takes the bypass restriction out of the top-level entries; it can be there once. -/
def splitNoBypass (entries : List (String × Json)) :
    Except Fault (Option Json × List (String × Json)) :=
  let others := entries.filter fun (key, _) => !isNoBypass key
  match entries.filter fun (key, _) => isNoBypass key with
  | [] => .ok (none, others)
  | [(_, value)] => .ok (some value, others)
  | _ => .error .misplacedNoBypass

/-- The guarded tree of an expression; the restriction is read before the rest. -/
def readGuarded (registry : Registry κ) : Json → Except Fault (GuardedTree κ)
  | .object entries => do
    match ← splitNoBypass entries with
    | (some value, others) =>
      let noBypass ← read registry value
      let main ← read registry (.object others)
      return ⟨main, some noBypass⟩
    | (none, others) => return ⟨← read registry (.object others), none⟩
  | value => return ⟨← read registry value, none⟩

end Clearance.Expression
