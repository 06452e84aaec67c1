import Clearance.Engine
import Clearance.Registry.Change

/-!
# Operations

Everything that can be asked of an engine, as data, so that whole runs can be spoken of.  A change
changes an engine in place, and may fail; a query is answered from an engine as it is.
`Engine.perform` performs an operation for an application, and `Engine.performEach` a sequence of
them; `Engine.next` and `Engine.after` are the engines that these leave.
-/

namespace Clearance

/-! ## Operations and what comes of them -/

/-- An operation that changes an engine, or fails. -/
inductive Change (κ β : Type)
  | addType (name : String) (checker : κ)
  | removeType (name : String)
  | setTypes (types : List (String × κ))
  | clearTypes
  | setBypass (bypass : Option β)
  | loadPolicies (set : PolicySet)

/-- An operation that leaves an engine as it is. -/
inductive Query (κ : Type)
  | buildTree (permissions : Json)
  | check (permissions context : Json)
  | checkWith (permissions context : Json) (allowBypass : Bool)
  | checkText (text : String) (context : Json)
  | checkPolicy (name : String) (context : Json)
  | checkTree (tree : GuardedTree κ) (context : Json) (allowBypass : Bool)
  | report (permissions context : Json) (allowBypass : Bool)
  | reportTree (tree : GuardedTree κ) (context : Json) (allowBypass : Bool)

/-- An operation on an engine. -/
inductive Operation (κ β : Type)
  | change (change : Change κ β)
  | query (query : Query κ)

/-- The cause for which an operation fails. -/
inductive Failure
  | fault (cause : Fault)
  | policyFault (cause : PolicyFault)
  deriving DecidableEq

/-- The answer to a query. -/
inductive Answer (κ : Type)
  | tree (tree : GuardedTree κ)
  | access (granted : Bool)
  | report (report : Access.Report)

/-- What comes of an operation. -/
inductive Outcome (κ : Type)
  /-- The engine has been changed. -/
  | done
  | answer (answer : Answer κ)
  | failed (cause : Failure)

variable {κ β : Type}

/-! ## One operation -/

/-- Performs a change in place. -/
def Change.perform : Change κ β → Mutation (Engine κ β) Failure Unit
  | .addType name checker => EStateM.adaptExcept .fault (Engine.addType name checker)
  | .removeType name => EStateM.adaptExcept .fault (Engine.removeType name)
  | .setTypes types => EStateM.adaptExcept .fault (Engine.setTypes types)
  | .clearTypes => EStateM.adaptExcept .fault Engine.clearTypes
  | .setBypass bypass => modify fun engine => engine.setBypass bypass
  | .loadPolicies set => EStateM.adaptExcept .policyFault (Engine.loadPolicies set)

namespace Engine

/-- The engine that an operation leaves. -/
def next (engine : Engine κ β) : Operation κ β → Engine κ β
  | .change change => change.perform.leaves engine
  | .query _ => engine

/-- A decision as the answer to a query. -/
def decided : Except Fault Bool → Except Failure (Answer κ)
  | .ok granted => .ok (.access granted)
  | .error cause => .error (.fault cause)

/-- A report as the answer to a query. -/
def reported : Except Fault Access.Report → Except Failure (Answer κ)
  | .ok report => .ok (.report report)
  | .error cause => .error (.fault cause)

/-- A decision on a policy as the answer to a query. -/
def policyDecided : Except PolicyFault Bool → Except Failure (Answer κ)
  | .ok granted => .ok (.access granted)
  | .error cause => .error (.policyFault cause)

/-- A tree as the answer to a query. -/
def built : Except Fault (GuardedTree κ) → Except Failure (Answer κ)
  | .ok tree => .ok (.tree tree)
  | .error cause => .error (.fault cause)

variable {m : Type → Type} [Monad m]

/-- The answer to a query. -/
def answer (host : Host κ β m) (engine : Engine κ β) :
    Query κ → m (Except Failure (Answer κ))
  | .buildTree permissions => return built (engine.buildTree permissions)
  | .check permissions context => return decided (← engine.check host permissions context)
  | .checkWith permissions context allowBypass =>
    return decided (← engine.checkWith host permissions context allowBypass)
  | .checkText text context => return decided (← engine.checkText host text context)
  | .checkPolicy name context => return policyDecided (← engine.checkPolicy host name context)
  | .checkTree tree context allowBypass =>
    return decided (← engine.checkTree host tree context allowBypass)
  | .report permissions context allowBypass =>
    return reported (← engine.report host permissions context allowBypass)
  | .reportTree tree context allowBypass =>
    return reported (← engine.reportTree host tree context allowBypass)

/-- Performs an operation.  A change leaves what it has made of the engine, also when it fails. -/
def perform (host : Host κ β m) : Operation κ β → StateT (Engine κ β) m (Outcome κ)
  | .change change => do
    match change.perform.run (← get) with
    | .ok _ changed =>
      set changed
      return .done
    | .error cause left =>
      set left
      return .failed cause
  | .query query => do
    match ← StateT.lift (answer host (← get) query) with
    | .ok answer => return .answer answer
    | .error cause => return .failed cause

/-! ## Runs -/

/-- The engine that a sequence of operations leaves. -/
def after (engine : Engine κ β) (operations : List (Operation κ β)) : Engine κ β :=
  operations.foldl next engine

/-- Performs a sequence of operations, each on the engine that those before it leave. -/
def performEach (host : Host κ β m) (operations : List (Operation κ β)) :
    StateT (Engine κ β) m (List (Outcome κ)) :=
  operations.mapM (perform host)

end Engine

end Clearance
