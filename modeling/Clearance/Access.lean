import Clearance.Tree.Evaluation

/-!
# Access

Access is granted by the bypass checker or by the main tree.  The bypass checker is asked only if
the caller allows it and the tree that restricts the bypass does not hold.
-/

namespace Clearance

/-- An application's answers: of checkers for permissions, of a bypass checker for a context. -/
structure Host (κ β : Type) (m : Type → Type) where
  ask : Asking κ m
  askBypass : β → Json → m Bool

namespace Access

variable {κ β : Type} {m : Type → Type} [Monad m]

/-- Whether there is a bypass checker, for debugging. -/
def debugText (bypass : Option β) : String :=
  "AccessChecker \x7b has_bypass_checker: " ++ toString bypass.isSome ++ " \x7d"

/-- A context is null, which is none, or an object. -/
def checkContext (context : Json) : Except Fault Unit :=
  match context.kind with
  | .null | .object => .ok ()
  | kind => .error (.notAContext kind)

/-- Whether the bypass grants access, when it is allowed and suppressed as said. -/
def bypassGrants (host : Host κ β m) (bypass : Option β) (context : Json)
    (allowBypass suppressed : Bool) : m Bool :=
  match bypass with
  | some checker =>
    if allowBypass && !suppressed then host.askBypass checker context else return false
  | none => return false

/-! ## Decisions -/

/-- Whether the restriction of a guarded tree holds; it is not asked if there is no bypass to
suppress. -/
def suppresses (host : Host κ β m) (tree : GuardedTree κ) (context : Json) (allowBypass : Bool) :
    m Bool :=
  match tree.noBypass with
  | some noBypass => if allowBypass then noBypass.eval host.ask context else return false
  | none => return false

/-- Whether access is granted in a context. -/
def check (host : Host κ β m) (bypass : Option β) (tree : GuardedTree κ) (context : Json)
    (allowBypass : Bool) : m (Except Fault Bool) :=
  match checkContext context with
  | .error fault => return .error fault
  | .ok () => do
    let suppressed ← suppresses host tree context allowBypass
    if ← bypassGrants host bypass context allowBypass suppressed then return .ok true
    else return .ok (← tree.main.eval host.ask context)

/-! ## Reports -/

/-- A decision with the values of all nodes it rests on. -/
structure Report where
  hasAccess : Bool
  bypassAccess : Bool
  main : Tree.Trace
  noBypass : Option Tree.Trace
  deriving Inhabited

/-- The trace of an optional tree. -/
def traceOption (host : Host κ β m) (context : Json) : Option (Tree κ) → m (Option Tree.Trace)
  | some tree => return some (← tree.trace host.ask context)
  | none => return none

/-- The same decision as `check`, with both trees decided in full. -/
def report (host : Host κ β m) (bypass : Option β) (tree : GuardedTree κ) (context : Json)
    (allowBypass : Bool) : m (Except Fault Report) :=
  match checkContext context with
  | .error fault => return .error fault
  | .ok () => do
    let noBypass ← traceOption host context tree.noBypass
    let suppressed := allowBypass && noBypass.any (·.value)
    let bypassAccess ← bypassGrants host bypass context allowBypass suppressed
    let main ← tree.main.trace host.ask context
    return .ok { hasAccess := bypassAccess || main.value, bypassAccess, main, noBypass }

end Access

/-! ## Written forms -/

/-- A record as JSON. -/
def Tree.Record.toJson (record : Tree.Record) : Json :=
  .object [("value", .bool record.value), ("permissions", record.permissions)]

/-- A trace as JSON. -/
def Tree.Trace.toJson (trace : Tree.Trace) : Json :=
  .object [("value", .bool trace.value), ("nodes", .array (trace.records.map (·.toJson)))]

/-- A report as JSON; the restriction is left out if there is none. -/
def Access.Report.toJson (report : Access.Report) : Json :=
  .object ([("has_access", .bool report.hasAccess), ("bypass_access", .bool report.bypassAccess),
    ("main", report.main.toJson)]
    ++ (report.noBypass.map fun trace => ("no_bypass", trace.toJson)).toList)

end Clearance
