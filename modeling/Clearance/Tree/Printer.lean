import Clearance.Json.Text
import Clearance.Key
import Clearance.Literal
import Clearance.Tree

/-!
# Writing trees

Every tree has one written form as an expression: a constant is a boolean, a permission an object
with its type as key, a gate an object with its keyword as key and the array of its inputs as value.
Reading that form gives a tree with the same written form.
-/

namespace Clearance

namespace Tree

variable {κ : Type}

/-! ## As an expression -/

mutual

/-- The written form of a tree. -/
def toJson : Tree κ → Json
  | constant value => .bool value
  | permission type value _ => .object [(type, .string value)]
  | gate g inputs => .object [(g.keyword, .array (toJsonEach inputs))]

/-- The written forms of trees. -/
def toJsonEach : List (Tree κ) → List Json
  | [] => []
  | tree :: rest => toJson tree :: toJsonEach rest

end

/-- The text of a tree. -/
def render (tree : Tree κ) : String := tree.toJson.render

/-! ## As an outline -/

mutual

/-- The shape of a tree in one line: gates as calls, permissions after their type. -/
def outline : Tree κ → String
  | constant value => toString value
  | permission type value _ => type ++ ":" ++ value
  | gate g inputs => g.keyword ++ "(" ++ ",".intercalate (outlineEach inputs) ++ ")"

/-- The shapes of trees. -/
def outlineEach : List (Tree κ) → List String
  | [] => []
  | tree :: rest => outline tree :: outlineEach rest

end

/-! ## For debugging -/

/-- The name of a gate in debugging output. -/
def gateName : Gate → String
  | .and => "And"
  | .nand => "Nand"
  | .or => "Or"
  | .nor => "Nor"
  | .xor => "Xor"
  | .not => "Not"

mutual

/-- Every part of a tree by name, in one line; checkers are left out. -/
def debugText : Tree κ → String
  | constant value => "Boolean(" ++ toString value ++ ")"
  | permission type value _ =>
    "Permission(PermissionLeaf \x7b permission_type: " ++ Literal.quote type ++ ", value: "
      ++ Literal.quote value ++ ", .. \x7d)"
  | gate g inputs =>
    "Gate(GateNode \x7b gate: " ++ gateName g ++ ", inputs: ["
      ++ ", ".intercalate (debugTextEach inputs) ++ "] \x7d)"

/-- The parts of trees by name. -/
def debugTextEach : List (Tree κ) → List String
  | [] => []
  | tree :: rest => debugText tree :: debugTextEach rest

end

end Tree

namespace GuardedTree

variable {κ : Type}

/-- The written form of a guarded tree.  Beside a restriction the main tree is the item at position
zero, so that a constant or a gate can stand there. -/
def toJson (tree : GuardedTree κ) : Json :=
  match tree.noBypass with
  | none => tree.main.toJson
  | some noBypass =>
    .object [(Keyword.noBypass, noBypass.toJson), ("0", tree.main.toJson)]

/-- The text of a guarded tree. -/
def render (tree : GuardedTree κ) : String := tree.toJson.render

end GuardedTree

end Clearance
