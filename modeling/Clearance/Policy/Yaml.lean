import Clearance.Policy
import Clearance.Yaml.Value

/-!
# Policy sets in YAML

A policy set, like the settings in it, is written as a mapping of named fields, or left empty.  Every
field may be missing, unknown ones are passed over whatever they hold, and none may be given twice.
-/

namespace Clearance

namespace Yaml.Document

/-- Whether a record can be left out in this way. -/
def isLeftOut : Node → Bool
  | .scalar true "" => true
  | _ => false

/-- The fields of a record, each at most once; one that is left out has none. -/
def fields (document : Document) (known : List String) (node : Node) :
    Reading (List (String × Node)) := do
  match ← document.follow node with
  | .mapping entries =>
    let named ← entries.mapM fun (key, value) => return (← document.key key, value)
    let fields := named.filter fun (name, _) => known.contains name
    if (fields.map (·.1)).Nodup then return fields else failure
  | node => if isLeftOut node then return [] else failure

/-- A boolean field, or its default if it is missing. -/
def flag (document : Document) (name : String) (byDefault : Bool)
    (fields : List (String × Node)) : Reading Bool := do
  match fields.lookup name with
  | none => return byDefault
  | some node =>
    match ← document.follow node with
    | .scalar true text => StateT.lift (boolOf? text)
    | _ => failure

/-- The settings of a set, which may be missing. -/
def settings (document : Document) (fields : List (String × Node)) : Reading Settings := do
  match fields.lookup "config" with
  | none => return {}
  | some node =>
    let fields ← document.fields ["allow_bypass", "debug"] node
    return {
      allowBypass := ← document.flag "allow_bypass" true fields
      debug := ← document.flag "debug" false fields }

/-- The policies of a set, which may be missing or left out; together with the set around them they
nest no deeper than any document may. -/
def policies (document : Document) (fields : List (String × Node)) :
    Reading (List (String × Json)) := do
  match fields.lookup "policies" with
  | none => return []
  | some node =>
    let node ← document.follow node
    if isLeftOut node then return []
    else match ← document.value (nestingLimit - 1) node with
      | .object policies => return policies
      | _ => failure

/-- The policy set that a document is. -/
def policySet (document : Document) : Reading PolicySet := do
  let fields ← document.fields ["config", "policies"] document.root
  return { settings := ← document.settings fields, policies := ← document.policies fields }

end Yaml.Document

/-- The policy set of a document. -/
def PolicySet.ofDocument? (document : Yaml.Document) : Option PolicySet :=
  document.policySet.run' document.aliasLimit

/-- The policy set that a YAML text holds. -/
def PolicySet.ofYamlText (text : String) : Except PolicyFault PolicySet :=
  match (Yaml.Document.ofText? text).bind ofDocument? with
  | some set => .ok set
  | none => .error .notYaml

end Clearance
