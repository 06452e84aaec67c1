import Clearance.Access
import Clearance.Json.Text
import Clearance.Policy

/-!
# Engines

An engine brings together the permission types, the bypass checker, the settings and the policies of
an application.  Operations change an engine in place, and a check leaves it as it is.  A tree that
has been built stays usable whatever becomes of the engine.
-/

namespace Clearance

/-- An application's permission types, bypass checker, settings and policies. -/
structure Engine (κ β : Type) where
  registry : Registry κ := .empty
  bypass : Option β := none
  settings : Settings := {}
  policySet : PolicySet := {}
  deriving Inhabited

namespace Engine

variable {κ β : Type}

/-! ## Changes -/

/-- Changes the types of an engine. -/
def onTypes {α : Type} (x : Mutation (Registry κ) Fault α) : Mutation (Engine κ β) Fault α :=
  fun engine =>
    match x.run engine.registry with
    | .ok value registry => .ok value { engine with registry }
    | .error fault registry => .error fault { engine with registry }

/-- Registers a type. -/
def addType (name : String) (checker : κ) : Mutation (Engine κ β) Fault Unit :=
  onTypes (Registry.add name checker)

/-- Takes a type out. -/
def removeType (name : String) : Mutation (Engine κ β) Fault Unit :=
  onTypes (discard (Registry.remove name))

/-- Replaces all types. -/
def setTypes (types : List (String × κ)) : Mutation (Engine κ β) Fault Unit :=
  onTypes (Registry.replaceAll types)

/-- Takes all types out. -/
def clearTypes : Mutation (Engine κ β) Fault Unit := onTypes Registry.clear

/-- The engine with another bypass checker, or with none. -/
def setBypass (engine : Engine κ β) (bypass : Option β) : Engine κ β := { engine with bypass }

/-- Takes over the policies of a set, and its settings, if all of them can be read. -/
def loadPolicies (set : PolicySet) : Mutation (Engine κ β) PolicyFault Unit := do
  let engine ← get
  MonadExcept.ofExcept (set.validate engine.registry)
  modify fun engine => { engine with settings := set.settings }
  modify fun engine => { engine with policySet := set }

/-! ## Checks -/

variable {m : Type → Type} [Monad m]

/-- The tree of an expression. -/
def buildTree (engine : Engine κ β) (permissions : Json) : Except Fault (GuardedTree κ) :=
  Expression.readGuarded engine.registry permissions

/-- Checks a tree that has been built. -/
def checkTree (engine : Engine κ β) (host : Host κ β m) (tree : GuardedTree κ) (context : Json)
    (allowBypass : Bool) : m (Except Fault Bool) :=
  Access.check host engine.bypass tree context allowBypass

/-- Reports on a tree that has been built. -/
def reportTree (engine : Engine κ β) (host : Host κ β m) (tree : GuardedTree κ) (context : Json)
    (allowBypass : Bool) : m (Except Fault Access.Report) :=
  Access.report host engine.bypass tree context allowBypass

/-- Checks an expression; with the debug setting its trees are decided in full. -/
def checkWith (engine : Engine κ β) (host : Host κ β m) (permissions context : Json)
    (allowBypass : Bool) : m (Except Fault Bool) :=
  match engine.buildTree permissions with
  | .error fault => return .error fault
  | .ok tree =>
    if engine.settings.debug then
      return (← engine.reportTree host tree context allowBypass).map (·.hasAccess)
    else engine.checkTree host tree context allowBypass

/-- Checks an expression, the settings saying whether the bypass is allowed. -/
def check (engine : Engine κ β) (host : Host κ β m) (permissions context : Json) :
    m (Except Fault Bool) :=
  engine.checkWith host permissions context engine.settings.allowBypass

/-- Checks an expression written as JSON text. -/
def checkText (engine : Engine κ β) (host : Host κ β m) (text : String) (context : Json) :
    m (Except Fault Bool) :=
  match Json.ofText? Json.textLimit text with
  | some permissions => engine.check host permissions context
  | none => return .error .notJson

/-- Checks a policy of the loaded set. -/
def checkPolicy (engine : Engine κ β) (host : Host κ β m) (name : String) (context : Json) :
    m (Except PolicyFault Bool) :=
  match engine.policySet.get? name with
  | some permissions => return (← engine.check host permissions context).mapError .check
  | none => return .error (.unknown name)

/-- Reports on the check of an expression. -/
def report (engine : Engine κ β) (host : Host κ β m) (permissions context : Json)
    (allowBypass : Bool) : m (Except Fault Access.Report) :=
  match engine.buildTree permissions with
  | .error fault => return .error fault
  | .ok tree => engine.reportTree host tree context allowBypass

end Engine

end Clearance
