import Clearance.Gate
import Clearance.Json

/-!
# Faults

Everything that can be wrong with an expression, a context or the name of a permission type.  A
fault is its cause; `Fault.kind` names the kind it belongs to, for programs, and `Fault.message`
describes it, for people.
-/

namespace Clearance

/-- The number of collections that may be nested in each other in an expression. -/
def nestingLimit : Nat := 128

/-- The cause of a failure. -/
inductive Fault
  /-- The expression is null or a number. -/
  | notAnExpression (kind : Json.Kind)
  /-- Collections are nested too deep. -/
  | tooDeep
  /-- The text of an expression is not JSON. -/
  | notJson
  /-- The context is neither null nor an object. -/
  | notAContext (kind : Json.Kind)
  /-- A null or a number stands inside an expression. -/
  | notAPermission (kind : Json.Kind)
  /-- A permission is the empty text. -/
  | emptyPermission
  /-- A permission stands under no type. -/
  | untyped (permission : String)
  /-- No type of this name is registered. -/
  | unknownType (name : String)
  /-- A type stands under a type. -/
  | nestedType (outer inner : String)
  /-- A constant stands under a type. -/
  | constantUnderType (name : String)
  /-- A constant stands as a key. -/
  | constantAsKey (key : String)
  /-- The bypass restriction stands below the top level, or twice. -/
  | misplacedNoBypass
  /-- The value of a gate is no collection. -/
  | scalarUnderGate (gate : Gate) (kind : Json.Kind)
  /-- A gate has too few inputs. -/
  | tooFewInputs (gate : Gate) (count : Nat)
  /-- A gate has more than `limit` inputs. -/
  | tooManyInputs (gate : Gate) (limit count : Nat)
  /-- A type of this name is registered already. -/
  | typeTaken (name : String)
  /-- The name of a type is empty. -/
  | emptyName
  /-- The name of a type is a position. -/
  | positionName (name : String)
  /-- The name of a type is a keyword. -/
  | keywordName (name : String)
  deriving DecidableEq, Inhabited

namespace Fault

/-- The kind of a fault. -/
def kind : Fault → String
  | notAnExpression _ | tooDeep | notJson => "invalid_argument_type"
  | notAContext _ => "invalid_context_type"
  | notAPermission _ => "invalid_permission_value_type"
  | emptyPermission => "empty_permission_value"
  | untyped _ => "unresolved_type"
  | unknownType _ => "permission_type_not_registered"
  | nestedType _ _ => "nested_type"
  | constantUnderType _ => "illegal_descendant"
  | constantAsKey _ => "boolean_has_children"
  | misplacedNoBypass => "misplaced_no_bypass"
  | scalarUnderGate _ _ | tooFewInputs _ _ | tooManyInputs _ _ _ => "invalid_gate_arity"
  | typeTaken _ => "permission_type_already_registered"
  | emptyName | positionName _ | keywordName _ => "invalid_permission_type_name"

/-- A text between quotes, as it is. -/
def quoted (text : String) : String := "\"" ++ text ++ "\""

/-- The description of a fault. -/
def message : Fault → String
  | notAnExpression kind =>
    "Invalid argument type: permissions must be a boolean, string, array or object, got "
      ++ kind.name
  | tooDeep =>
    "Invalid argument type: permissions nest deeper than " ++ toString nestingLimit ++ " levels"
  | notJson => "Invalid argument type: permissions are not valid JSON"
  | notAContext kind =>
    "Invalid context type: expected null or an object, got " ++ kind.name
  | notAPermission kind =>
    "Invalid permission value type: expected a boolean, string, array or object, got " ++ kind.name
  | emptyPermission => "Permission value must not be empty"
  | untyped permission => "Permission value " ++ quoted permission ++ " has no permission type"
  | unknownType name => "Permission type not registered: " ++ name
  | nestedType outer inner =>
    "Permission type " ++ quoted inner ++ " cannot be nested under permission type " ++ quoted outer
  | constantUnderType name =>
    "A boolean cannot be a descendant of permission type " ++ quoted name
  | constantAsKey key => "Boolean key " ++ quoted key ++ " cannot have children"
  | misplacedNoBypass => "NO_BYPASS is only allowed at the top level"
  | scalarUnderGate gate kind =>
    "Invalid input for " ++ gate.keyword ++ " gate: value must be an array or object, got "
      ++ kind.name
  | tooFewInputs gate count =>
    "Invalid input for " ++ gate.keyword ++ " gate: requires at least " ++ toString gate.minInputs
      ++ " input(s), got " ++ toString count
  | tooManyInputs gate limit count =>
    "Invalid input for " ++ gate.keyword ++ " gate: requires exactly " ++ toString limit
      ++ " input, got " ++ toString count
  | typeTaken name => "Permission type already registered: " ++ name
  | emptyName => "Invalid permission type name: name must not be empty"
  | positionName name =>
    "Invalid permission type name: " ++ quoted name
      ++ " is numeric and would be read as a positional key"
  | keywordName name =>
    "Invalid permission type name: " ++ quoted name ++ " is a reserved keyword"

end Fault

/-- Checks that a gate can have this many inputs. -/
def Gate.checkCount (gate : Gate) (count : Nat) : Except Fault Unit :=
  if count < gate.minInputs then .error (.tooFewInputs gate count)
  else match gate.maxInputs with
    | some limit => if limit < count then .error (.tooManyInputs gate limit count) else .ok ()
    | none => .ok ()

/-- A gate can have a number of inputs exactly if the check passes. -/
theorem Gate.checkCount_eq_ok_iff (gate : Gate) (count : Nat) :
    gate.checkCount count = .ok () ↔ gate.admits count = true := by
  cases gate <;> grind [checkCount, admits, minInputs, maxInputs]

end Clearance
