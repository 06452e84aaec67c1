import Clearance.Tree.Expression

/-!
# Policy sets

Named permission expressions, with the settings they were written for.  A set is valid for a
registry if every one of its expressions can be read with it.
-/

namespace Clearance

/-- The settings of an engine. -/
structure Settings where
  /-- Whether the bypass is allowed in a check that does not say so. -/
  allowBypass : Bool := true
  /-- Whether every check decides its trees in full. -/
  debug : Bool := false
  deriving DecidableEq, Inhabited

/-- Named expressions in the order written, and settings. -/
structure PolicySet where
  settings : Settings := {}
  policies : List (String × Json) := []
  deriving Inhabited

/-- The cause of a failure that has to do with policies. -/
inductive PolicyFault
  /-- A policy file cannot be read as text. -/
  | unreadable
  /-- A text is not a policy set in YAML. -/
  | notYaml
  /-- A text is not a policy set in JSON. -/
  | notJson
  /-- The expression of a policy is faulty. -/
  | invalid (name : String) (cause : Fault)
  /-- There is no policy of this name. -/
  | unknown (name : String)
  /-- The check of a policy failed. -/
  | check (cause : Fault)
  deriving DecidableEq, Inhabited

namespace PolicyFault

/-- The kind of a failure. -/
def kind : PolicyFault → String
  | unreadable => "io"
  | notYaml => "yaml"
  | notJson => "json"
  | invalid _ _ => "invalid_policy"
  | unknown _ => "not_found"
  | check _ => "permission"

/-- The description of a failure, where it does not come from outside. -/
def message? : PolicyFault → Option String
  | unreadable | notYaml | notJson => none
  | invalid name cause =>
    some ("Invalid policy " ++ Fault.quoted name ++ ": " ++ cause.message)
  | unknown name => some ("Policy not found: " ++ name)
  | check cause => some cause.message

/-- The fault of an expression or a context that lies behind a failure. -/
def cause? : PolicyFault → Option Fault
  | invalid _ cause | check cause => some cause
  | _ => none

end PolicyFault

namespace PolicySet

/-- The expression of a policy. -/
def get? (set : PolicySet) (name : String) : Option Json := set.policies.lookup name

/-- The names of the policies, in the order written. -/
def names (set : PolicySet) : List String := set.policies.map (·.1)

/-- Reads every policy with a registry, up to the first that is faulty. -/
def validateEach {κ : Type} (registry : Registry κ) :
    List (String × Json) → Except PolicyFault Unit
  | [] => .ok ()
  | (name, expression) :: rest =>
    match Expression.readGuarded registry expression with
    | .ok _ => validateEach registry rest
    | .error cause => .error (.invalid name cause)

/-- Checks that every policy can be read with a registry. -/
def validate {κ : Type} (set : PolicySet) (registry : Registry κ) : Except PolicyFault Unit :=
  validateEach registry set.policies

end PolicySet

end Clearance
