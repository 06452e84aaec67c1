import Clearance.Key
import Clearance.Policy.Json
import Clearance.Policy.Yaml

/-!
# Policy files

The name of a file says in which format its policies are written: JSON if the name has the extension
`json` in any letter case, and otherwise YAML.
-/

namespace Clearance

/-- The part of a file name after its last dot, unless that dot is the first character. -/
def extension? (name : String) : Option String :=
  let reversed := name.toList.reverse
  let last := reversed.takeWhile (· != '.')
  match reversed.dropWhile (· != '.') with
  | [] | ['.'] => none
  | _ => some (String.ofList last.reverse)

/-- Whether a file of this name is written in JSON. -/
def isJsonFile (name : String) : Bool := (extension? name).any (sameWord · "json")

/-- The policy set of a file, given by its name and its content, if there is any. -/
def PolicySet.ofFile (name : String) (content : Option ByteArray) : Except PolicyFault PolicySet :=
  match content.bind String.fromUTF8? with
  | none => .error .unreadable
  | some text => if isJsonFile name then ofJsonText text else ofYamlText text

end Clearance
