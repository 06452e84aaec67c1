import Clearance.Engine
import Clearance.Proofs.Induction

/-!
# Decisions on known answers

Where every answer depends on the question alone, a decision is a boolean: access is granted by the
bypass or by the main tree.  A trace has the value that its tree is decided with, so that a report
says the same as a check, and an engine decides alike with the debug setting on and off.
-/

namespace Clearance

variable {κ β : Type}

/-! ## Trees -/

namespace Tree

/-- The traces of trees are those of each. -/
theorem traceEach_eq_map (ask : Asking κ Id) (context : Json) (trees : List (Tree κ)) :
    traceEach ask context trees = trees.map (trace ask context) := by
  induction trees with
  | nil => rfl
  | cons tree rest ih =>
      show trace ask context tree :: traceEach ask context rest = _
      rw [ih, List.map_cons]

/-- A tree has the same value in full as when gates read no more inputs than they need. -/
theorem value_trace (ask : Asking κ Id) (context : Json) (tree : Tree κ) :
    (trace ask context tree).value = tree.eval ask context := by
  induction tree using Tree.induction with
  | constant value => rfl
  | permission type value checker => rfl
  | gate g inputs ih =>
      show g.apply ((traceEach ask context inputs).map (·.value)) = eval ask context (gate g inputs)
      rw [traceEach_eq_map, List.map_map, eval, evalEach_eq_map, Gate.apply, List.map_map]
      exact congrArg (fun values : List (Id Bool) => g.run values) (List.map_congr_left ih)

end Tree

/-! ## Access -/

namespace Access

/-- Whether the bypass grants access: it is allowed, the restriction does not hold, and there is a
bypass checker that agrees. -/
def grantsByBypass (host : Host κ β Id) (bypass : Option β) (tree : GuardedTree κ) (context : Json)
    (allowBypass : Bool) : Bool :=
  allowBypass && !(tree.noBypass.any fun noBypass => noBypass.eval host.ask context) &&
    bypass.any fun checker => host.askBypass checker context

/-- Whether access is granted, by the bypass or by the main tree. -/
def grants (host : Host κ β Id) (bypass : Option β) (tree : GuardedTree κ) (context : Json)
    (allowBypass : Bool) : Bool :=
  grantsByBypass host bypass tree context allowBypass || tree.main.eval host.ask context

section Known

variable (host : Host κ β Id) (bypass : Option β) (tree : GuardedTree κ) (context : Json)
  (allowBypass : Bool)

/-- The restriction suppresses a bypass that is allowed if it holds. -/
theorem suppresses_eq :
    suppresses host tree context allowBypass =
      (allowBypass && tree.noBypass.any fun noBypass => noBypass.eval host.ask context) := by
  obtain ⟨main, noBypass⟩ := tree
  cases noBypass <;> cases allowBypass <;> rfl

/-- The bypass that a restriction can suppress is asked only where it can grant access. -/
theorem bypassGrants_suppresses :
    bypassGrants host bypass context allowBypass (suppresses host tree context allowBypass) =
      grantsByBypass host bypass tree context allowBypass := by
  rw [suppresses_eq, grantsByBypass]
  cases allowBypass <;> cases tree.noBypass.any _ <;> cases bypass <;> rfl

/-- A check fails on its context, or says whether access is granted. -/
theorem check_eq :
    Id.run (check host bypass tree context allowBypass) =
      (checkContext context).map fun _ => grants host bypass tree context allowBypass := by
  unfold check
  cases checkContext context with
  | error fault => rfl
  | ok _ =>
      show (bypassGrants host bypass context allowBypass
          (suppresses host tree context allowBypass) >>= fun granted =>
        if granted = true then pure (.ok true) else pure (.ok (tree.main.eval host.ask context)) :
          Id (Except Fault Bool)) = _
      rw [bypassGrants_suppresses]
      cases hgrants : grantsByBypass host bypass tree context allowBypass with
      | true => simp [grants, hgrants, Except.map, bind, pure]
      | false => simp [grants, hgrants, Except.map, bind, pure]

/-- A restriction has the same value in full. -/
theorem map_value_traceOption :
    (Id.run (traceOption host context tree.noBypass)).map (·.value) =
      tree.noBypass.map (Tree.eval host.ask context) := by
  obtain ⟨main, noBypass⟩ := tree
  cases noBypass with
  | none => rfl
  | some noBypass => exact congrArg some (Tree.value_trace host.ask context noBypass)

/-- The trace of a restriction says whether it suppresses the bypass. -/
theorem suppresses_eq_traceOption :
    (allowBypass && (Id.run (traceOption host context tree.noBypass)).any (·.value)) =
      suppresses host tree context allowBypass := by
  have hvalue := congrArg (Option.any id) (map_value_traceOption host tree context)
  rw [Option.any_map, Option.any_map] at hvalue
  rw [suppresses_eq]
  exact congrArg (allowBypass && ·) hvalue

/-- A report fails on its context, or says how both trees are decided. -/
theorem report_eq :
    Id.run (report host bypass tree context allowBypass) =
      (checkContext context).map fun _ =>
        { hasAccess := grants host bypass tree context allowBypass
          bypassAccess := grantsByBypass host bypass tree context allowBypass
          main := tree.main.trace host.ask context
          noBypass := traceOption host context tree.noBypass } := by
  unfold report
  cases checkContext context with
  | error fault => rfl
  | ok _ =>
      show (bypassGrants host bypass context allowBypass (allowBypass &&
          (Id.run (traceOption host context tree.noBypass)).any (·.value)) >>= fun bypassAccess =>
        pure (.ok ⟨bypassAccess || (tree.main.trace host.ask context).value, bypassAccess,
          tree.main.trace host.ask context, traceOption host context tree.noBypass⟩) :
          Id (Except Fault Report)) = _
      rw [suppresses_eq_traceOption, bypassGrants_suppresses, Tree.value_trace]
      rfl

/-- A report says the same as a check. -/
theorem map_hasAccess_report :
    (Id.run (report host bypass tree context allowBypass)).map (·.hasAccess) =
      Id.run (check host bypass tree context allowBypass) := by
  rw [report_eq, check_eq]
  cases checkContext context <;> rfl

end Known

end Access

/-! ## Engines -/

namespace Engine

section Settings

variable {m : Type → Type} [Monad m] {engine : Engine κ β} (host : Host κ β m)
  {permissions : Json} (context : Json) (allowBypass : Bool)

/-- An expression that is not accepted is not decided. -/
theorem checkWith_of_error {fault : Fault} (hbuild : engine.buildTree permissions = .error fault) :
    engine.checkWith host permissions context allowBypass = pure (.error fault) := by
  rw [checkWith, hbuild]

/-- With the debug setting off an engine checks the tree that it builds. -/
theorem checkWith_of_off {tree : GuardedTree κ} (hdebug : engine.settings.debug = false)
    (hbuild : engine.buildTree permissions = .ok tree) :
    engine.checkWith host permissions context allowBypass =
      Access.check host engine.bypass tree context allowBypass := by
  rw [checkWith, hbuild]
  simp [hdebug, checkTree]

/-- With the debug setting on an engine reports on the tree that it builds, and says whether access
is granted. -/
theorem checkWith_of_on {tree : GuardedTree κ} (hdebug : engine.settings.debug = true)
    (hbuild : engine.buildTree permissions = .ok tree) :
    engine.checkWith host permissions context allowBypass =
      Access.report host engine.bypass tree context allowBypass >>= fun report =>
        pure (report.map (·.hasAccess)) := by
  rw [checkWith, hbuild]
  simp [hdebug, reportTree]

/-- An engine does not report on an expression that is not accepted. -/
theorem report_of_error {fault : Fault} (hbuild : engine.buildTree permissions = .error fault) :
    engine.report host permissions context allowBypass = pure (.error fault) := by
  rw [report, hbuild]

/-- An engine reports on the tree that it builds. -/
theorem report_of_ok {tree : GuardedTree κ} (hbuild : engine.buildTree permissions = .ok tree) :
    engine.report host permissions context allowBypass =
      Access.report host engine.bypass tree context allowBypass := by
  rw [report, hbuild]
  rfl

end Settings

section Known

variable (engine : Engine κ β) (host : Host κ β Id) (permissions context : Json)
  (allowBypass : Bool)

/-- An engine checks the tree that it builds, with the debug setting on or off. -/
theorem checkWith_eq :
    Id.run (engine.checkWith host permissions context allowBypass) =
      engine.buildTree permissions >>= fun tree =>
        Id.run (Access.check host engine.bypass tree context allowBypass) := by
  cases hbuild : engine.buildTree permissions with
  | error fault =>
      rw [checkWith_of_error host context allowBypass hbuild]
      rfl
  | ok tree =>
      cases hdebug : engine.settings.debug with
      | false =>
          rw [checkWith_of_off host context allowBypass hdebug hbuild]
          rfl
      | true =>
          rw [checkWith_of_on host context allowBypass hdebug hbuild]
          exact Access.map_hasAccess_report host engine.bypass tree context allowBypass

/-- Access is granted exactly if the expression and the context are accepted and the bypass or the
main tree grants it. -/
theorem checkWith_eq_ok_true_iff :
    engine.checkWith host permissions context allowBypass = .ok true ↔
      ∃ tree, engine.buildTree permissions = .ok tree ∧ Access.checkContext context = .ok () ∧
        Access.grants host engine.bypass tree context allowBypass = true := by
  show Id.run (engine.checkWith host permissions context allowBypass) = .ok true ↔ _
  rw [checkWith_eq, bind_eq_ok_iff]
  simp only [Access.check_eq]
  cases Access.checkContext context <;> simp [Except.map]

end Known

end Engine

end Clearance
