import Clearance.Access
import Clearance.Proofs.Calls
import Clearance.Proofs.FixedPoint

/-!
# Related applications

A decision asks an application only for what its tree and the bypass checker need.  If two
applications, perhaps with different states, answer alike for the types of a registry and for a
bypass checker, then they decide every tree alike that has its checkers from that registry.
-/

namespace Clearance

variable {κ β : Type} {m n : Type → Type} [Monad m] [Monad n]

/-! ## Simulations -/

/-- A relation between the computations of two applications that known values and binds preserve. -/
structure Simulation (R : (α : Type) → m α → n α → Prop) : Prop where
  pure : ∀ {α : Type} (a : α), R α (pure a) (pure a)
  bind : ∀ {α γ : Type} {x : m α} {y : n α} {f : α → m γ} {g : α → n γ}, R α x y →
    (∀ a, R γ (f a) (g a)) → R γ (x >>= f) (y >>= g)

/-- A simulation relates decisions. -/
theorem Simulation.simulates {R : (α : Type) → m α → n α → Prop} (hR : Simulation R) :
    Simulates (R Bool) :=
  ⟨hR.pure, fun _ _ _ _ => hR.bind⟩

/-- States that are related stay so in computations with equal results. -/
theorem simulation_states {σ τ : Type} (r : σ → τ → Prop) :
    Simulation fun (α : Type) (x : StateM σ α) (y : StateM τ α) =>
      ∀ s t, r s t → (x.run s).1 = (y.run t).1 ∧ r (x.run s).2 (y.run t).2 where
  pure a s t hst := ⟨rfl, hst⟩
  bind {α γ x y f g} hxy hfg s t hst := by
    obtain ⟨hvalue, hstates⟩ := hxy s t hst
    show ((f (x.run s).1).run (x.run s).2).1 = ((g (y.run t).1).run (y.run t).2).1 ∧
      r ((f (x.run s).1).run (x.run s).2).2 ((g (y.run t).1).run (y.run t).2).2
    rw [← hvalue]
    exact hfg _ _ _ hstates

/-- Two applications whose answers are related in a context, those of the checkers that a registry
has and those of a bypass checker. -/
structure Host.Related (R : (α : Type) → m α → n α → Prop) (registry : Registry κ)
    (bypass : Option β) (context : Json) (host : Host κ β m) (host' : Host κ β n) : Prop where
  ask : ∀ type checker, registry.get? type = some checker → ∀ value,
    R Bool (host.ask checker value context) (host'.ask checker value context)
  askBypass : ∀ checker, bypass = some checker →
    R Bool (host.askBypass checker context) (host'.askBypass checker context)

section Related

variable {R : (α : Type) → m α → n α → Prop} {registry : Registry κ} {bypass : Option β}
  {context : Json} {host : Host κ β m} {host' : Host κ β n}

/-! ## Trees -/

namespace Tree

/-- Related applications decide a tree alike. -/
theorem related_eval (hR : Simulation R)
    (hhosts : Host.Related R registry bypass context host host') {tree : Tree κ}
    (hbound : tree.Bound registry) :
    R Bool (tree.eval host.ask context) (tree.eval host'.ask context) := by
  induction tree using Tree.induction with
  | constant value => exact hR.pure value
  | permission type value checker =>
      exact hhosts.ask type checker (forall_mem_nodes_permission.1 hbound) value
  | gate g inputs ih =>
      have hinputs := (forall_mem_nodes_gate.1 hbound).2
      rw [eval, eval, evalEach_eq_map, evalEach_eq_map]
      refine hR.simulates.runFrom g {} ?_
      rw [List.forall₂_map_left_iff, List.forall₂_map_right_iff, List.forall₂_same]
      exact fun input hinput => ih input hinput (hinputs input hinput)

/-- Traces of related applications are related together. -/
theorem related_traceEach (hR : Simulation R) {trees : List (Tree κ)}
    (h : ∀ tree ∈ trees, R Trace (tree.trace host.ask context) (tree.trace host'.ask context)) :
    R (List Trace) (traceEach host.ask context trees) (traceEach host'.ask context trees) := by
  induction trees with
  | nil => exact hR.pure []
  | cons tree rest ih =>
      rw [List.forall_mem_cons] at h
      exact hR.bind h.1 fun first => hR.bind (ih h.2) fun others => hR.pure (first :: others)

/-- Related applications trace a tree alike. -/
theorem related_trace (hR : Simulation R)
    (hhosts : Host.Related R registry bypass context host host') {tree : Tree κ}
    (hbound : tree.Bound registry) :
    R Trace (tree.trace host.ask context) (tree.trace host'.ask context) := by
  induction tree using Tree.induction with
  | constant value => exact hR.pure _
  | permission type value checker =>
      have hask := hhosts.ask type checker (forall_mem_nodes_permission.1 hbound) value
      exact hR.bind hask fun answer => hR.pure _
  | gate g inputs ih =>
      have hinputs := (forall_mem_nodes_gate.1 hbound).2
      have htraces := related_traceEach hR fun input hinput =>
        ih input hinput (hinputs input hinput)
      exact hR.bind htraces fun traces => hR.pure _

end Tree

/-! ## Access -/

namespace Access

/-- Related applications grant a bypass alike. -/
theorem related_bypassGrants (hR : Simulation R)
    (hhosts : Host.Related R registry bypass context host host') (allowBypass suppressed : Bool) :
    R Bool (bypassGrants host bypass context allowBypass suppressed)
      (bypassGrants host' bypass context allowBypass suppressed) := by
  cases bypass with
  | none => exact hR.pure false
  | some checker =>
      rw [bypassGrants, bypassGrants]
      split
      · exact hhosts.askBypass checker rfl
      · exact hR.pure false

variable {tree : GuardedTree κ}

/-- Related applications suppress a bypass alike. -/
theorem related_suppresses (hR : Simulation R)
    (hhosts : Host.Related R registry bypass context host host')
    (hbound : tree.Both (Tree.Bound registry)) (allowBypass : Bool) :
    R Bool (suppresses host tree context allowBypass)
      (suppresses host' tree context allowBypass) := by
  rw [suppresses, suppresses]
  cases hnoBypass : tree.noBypass with
  | none => exact hR.pure false
  | some noBypass =>
      cases allowBypass with
      | false => exact hR.pure false
      | true => exact Tree.related_eval hR hhosts (hbound.2 noBypass hnoBypass)

/-- Related applications trace a restriction alike. -/
theorem related_traceOption (hR : Simulation R)
    (hhosts : Host.Related R registry bypass context host host')
    (hbound : tree.Both (Tree.Bound registry)) :
    R (Option Tree.Trace) (traceOption host context tree.noBypass)
      (traceOption host' context tree.noBypass) := by
  cases hnoBypass : tree.noBypass with
  | none => exact hR.pure none
  | some noBypass =>
      have htrace := Tree.related_trace hR hhosts (hbound.2 noBypass hnoBypass)
      exact hR.bind htrace fun trace => hR.pure (some trace)

/-- Related applications check a tree alike. -/
theorem related_check (hR : Simulation R)
    (hhosts : Host.Related R registry bypass context host host')
    (hbound : tree.Both (Tree.Bound registry)) (allowBypass : Bool) :
    R (Except Fault Bool) (check host bypass tree context allowBypass)
      (check host' bypass tree context allowBypass) := by
  rw [check, check]
  cases checkContext context with
  | error fault => exact hR.pure _
  | ok _ =>
      refine hR.bind (related_suppresses hR hhosts hbound allowBypass) fun suppressed => ?_
      refine hR.bind (related_bypassGrants hR hhosts allowBypass suppressed) fun granted => ?_
      cases granted with
      | true => exact hR.pure _
      | false =>
          exact hR.bind (Tree.related_eval hR hhosts hbound.1) fun value => hR.pure _

/-- Related applications report on a tree alike. -/
theorem related_report (hR : Simulation R)
    (hhosts : Host.Related R registry bypass context host host')
    (hbound : tree.Both (Tree.Bound registry)) (allowBypass : Bool) :
    R (Except Fault Report) (report host bypass tree context allowBypass)
      (report host' bypass tree context allowBypass) := by
  rw [report, report]
  cases checkContext context with
  | error fault => exact hR.pure _
  | ok _ =>
      refine hR.bind (related_traceOption hR hhosts hbound) fun noBypass => ?_
      refine hR.bind (related_bypassGrants hR hhosts allowBypass _) fun bypassAccess => ?_
      exact hR.bind (Tree.related_trace hR hhosts hbound.1) fun main => hR.pure _

end Access

end Related

end Clearance
