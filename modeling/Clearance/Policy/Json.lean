import Clearance.Json.Text
import Clearance.Policy

/-!
# Policy sets in JSON

A policy set, like the settings in it, is written as an object of named fields, or as an array of
its fields in their order.  Every field may be missing, unknown ones are passed over whatever they
hold, and none may be given twice.
-/

namespace Clearance

namespace Json.Written

/-- The entries of an object by the text of their keys. -/
def named? : List (List Piece × Written) → Option (List (String × Written))
  | [] => some []
  | (key, value) :: rest => do
    let name ← Piece.text? key
    return (name, value) :: (← named? rest)

/-- The fields of a record, each at most once; in an array they stand in the order of `known`. -/
def fields? (known : List String) : Written → Option (List (String × Written))
  | .array items => if items.length ≤ known.length then some (known.zip items) else none
  | .object entries => do
    let fields := (← named? entries).filter fun (name, _) => known.contains name
    if (fields.map (·.1)).Nodup then some fields else none
  | _ => none

/-- A boolean field, or its default if it is missing. -/
def flag? (name : String) (byDefault : Bool) (fields : List (String × Written)) : Option Bool :=
  match fields.lookup name with
  | none => some byDefault
  | some (.bool value) => some value
  | some _ => none

end Json.Written

open Json (Written)

/-- The settings written as JSON. -/
def Settings.ofWritten? (written : Written) : Option Settings := do
  let fields ← written.fields? ["allow_bypass", "debug"]
  return {
    allowBypass := ← Written.flag? "allow_bypass" true fields
    debug := ← Written.flag? "debug" false fields }

namespace PolicySet

/-- The settings of a set, which may be missing. -/
def settingsOf? (fields : List (String × Written)) : Option Settings :=
  match fields.lookup "config" with
  | none => some {}
  | some written => Settings.ofWritten? written

/-- The policies of a set, which may be missing; together with the set around them they nest no
deeper than any text may. -/
def policiesOf? (fields : List (String × Written)) : Option (List (String × Json)) :=
  match fields.lookup "policies" with
  | none => some []
  | some written =>
    match written.valueWithin? (Json.textLimit - 1) with
    | some (.object policies) => some policies
    | _ => none

/-- The policy set written as JSON. -/
def ofWritten? (written : Written) : Option PolicySet := do
  let fields ← written.fields? ["config", "policies"]
  return { settings := ← settingsOf? fields, policies := ← policiesOf? fields }

/-- The policy set that a JSON text holds. -/
def ofJsonText (text : String) : Except PolicyFault PolicySet :=
  match (Written.ofText? text).bind ofWritten? with
  | some set => .ok set
  | none => .error .notJson

end PolicySet

end Clearance
