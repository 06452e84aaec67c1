import Clearance.Proofs.Framing
import Clearance.Proofs.Growth
import Clearance.Proofs.Questions
import Clearance.Proofs.Simulation

/-!
# Trees that are kept

A tree that an engine has built holds its checkers.  Whatever becomes of the engine, a check of the
tree asks these checkers, and the bypass checker that there is then; the types registered by then do
not matter.
-/

namespace Clearance

variable {κ β : Type}

/-! ## Questions that are asked -/

section Asked

variable {m : Type → Type} [Monad m] [LawfulMonad m]

/-- Whatever has been noted before, only questions with a property are noted. -/
def AsksOnly {α : Type} (P : Question κ β → Prop) (x : StateT (List (Question κ β)) m α) : Prop :=
  ∀ noted, Always (fun result => ∃ asked, result.2 = noted ++ asked ∧ ∀ question ∈ asked, P question)
    (x.run noted)

/-- Asking only certain questions is kept by known values and binds. -/
theorem simulation_asksOnly (P : Question κ β → Prop) :
    Simulation fun (α : Type) (x _ : StateT (List (Question κ β)) m α) => AsksOnly P x where
  pure a noted := always_pure ⟨[], (List.append_nil noted).symm, by simp⟩
  bind {α γ x _ f _} hx hf noted := by
    refine (hx noted).bind ?_
    rintro ⟨a, noted'⟩ ⟨first, hnoted, hfirst⟩
    refine (hf a noted').imp ?_
    rintro result ⟨second, hresult, hsecond⟩
    refine ⟨first ++ second, ?_, List.forall_mem_append.2 ⟨hfirst, hsecond⟩⟩
    rw [hresult, show noted' = noted ++ first from hnoted, List.append_assoc]

/-- One question that is noted before it is answered. -/
theorem asksOnly_singleton {P : Question κ β → Prop} {question : Question κ β} (h : P question)
    (answer : m Bool) :
    AsksOnly P (do
      modify fun noted => noted ++ [question]
      answer : StateT (List (Question κ β)) m Bool) := by
  intro noted
  have hrun : StateT.run (do
      modify fun noted => noted ++ [question]
      answer : StateT (List (Question κ β)) m Bool) noted =
        answer >>= fun value => pure (value, noted ++ [question]) := by
    simp
  rw [hrun]
  exact always_bind_of_forall fun value => always_pure ⟨[question], rfl, by simpa using h⟩

end Asked

namespace Engine

/-- What a tree of one engine may ask about a context when another engine checks it: checkers that the
first engine had registered, and the bypass checker of the second. -/
inductive MayAsk (built later : Engine κ β) (context : Json) : Question κ β → Prop
  | permission {type : String} {checker : κ} (value : String)
      (hget : built.registry.get? type = some checker) :
      MayAsk built later context (.permission checker value context)
  | bypass {checker : β} (hbypass : later.bypass = some checker) :
      MayAsk built later context (.bypass checker context)

/-- An application that notes its questions asks only what a kept tree may ask. -/
theorem related_noting {m : Type → Type} [Monad m] [LawfulMonad m] (built later : Engine κ β)
    (host : Host κ β m) (context : Json) :
    Host.Related (fun _ x _ => AsksOnly (built.MayAsk later context) x) built.registry later.bypass
      context host.noting host.noting where
  ask _ _ hget value := asksOnly_singleton (.permission value hget) _
  askBypass _ hbypass := asksOnly_singleton (.bypass hbypass) _

/-! ## Trees after changes -/

/-- The checkers of a tree that is built are those of the registry. -/
theorem both_bound_of_buildTree {engine : Engine κ β} {permissions : Json} {tree : GuardedTree κ}
    (hbuild : engine.buildTree permissions = .ok tree) :
    tree.Both (Tree.Bound engine.registry) :=
  Expression.bound_of_readGuarded hbuild

/-- While the types that were registered keep their checkers, a kept tree is checked and reported on
like its expression, with the debug setting on or off. -/
theorem checkTree_eq_checkWith {engine later : Engine κ β} {permissions : Json}
    {tree : GuardedTree κ} (hbuild : engine.buildTree permissions = .ok tree)
    (htypes : later.registry.Extends engine.registry) (host : Host κ β Id) (context : Json)
    (allowBypass : Bool) :
    Id.run (later.checkTree host tree context allowBypass) =
        Id.run (later.checkWith host permissions context allowBypass) ∧
      (Id.run (later.reportTree host tree context allowBypass)).map (·.hasAccess) =
        Id.run (later.checkWith host permissions context allowBypass) := by
  have hrebuild : later.buildTree permissions = .ok tree :=
    (Expression.grown_readGuarded htypes permissions).eq_ok hbuild
  have hcheck : Id.run (later.checkWith host permissions context allowBypass) =
      Id.run (later.checkTree host tree context allowBypass) := by
    rw [checkWith_eq, hrebuild]
    rfl
  rw [hcheck]
  exact ⟨rfl, Access.map_hasAccess_report host later.bypass tree context allowBypass⟩

/-- **A tree that has been built does not depend on the engine any more.**  After any operations its
check asks only checkers that were registered when it was built, and the bypass checker that there is
now.  Applications whose answers of these checkers are related, whatever their other checkers are and
whatever states they keep, come to related results, even with another engine that has the same bypass
checker.  While the types that were registered keep their checkers, and checkers keep no state, the
tree is checked like its expression. -/
theorem kept_tree_independent {engine : Engine κ β} {permissions : Json} {tree : GuardedTree κ}
    (hbuild : engine.buildTree permissions = .ok tree) (operations : List (Operation κ β))
    (context : Json) (allowBypass : Bool) :
    let later := engine.after operations
    (∀ {m : Type → Type} [Monad m] [LawfulMonad m] (host : Host κ β m),
      AsksOnly (engine.MayAsk later context)
        (later.checkTree host.noting tree context allowBypass) ∧
      AsksOnly (engine.MayAsk later context)
        (later.reportTree host.noting tree context allowBypass)) ∧
    (∀ {m n : Type → Type} [Monad m] [Monad n] {R : (α : Type) → m α → n α → Prop},
      Simulation R → ∀ (other : Engine κ β), other.bypass = later.bypass →
      ∀ (host : Host κ β m) (host' : Host κ β n),
      Host.Related R engine.registry later.bypass context host host' →
      R _ (later.checkTree host tree context allowBypass)
        (other.checkTree host' tree context allowBypass) ∧
      R _ (later.reportTree host tree context allowBypass)
        (other.reportTree host' tree context allowBypass)) ∧
    (later.registry.Extends engine.registry → ∀ host : Host κ β Id,
      later.checkTree host tree context allowBypass =
        later.checkWith host permissions context allowBypass ∧
      (later.reportTree host tree context allowBypass).run.map (·.hasAccess) =
        later.checkWith host permissions context allowBypass) := by
  intro later
  have hbound := both_bound_of_buildTree hbuild
  refine ⟨?_, ?_, ?_⟩
  · intro m _ _ host
    have hhosts := related_noting engine later host context
    exact ⟨Access.related_check (simulation_asksOnly _) hhosts hbound allowBypass,
      Access.related_report (simulation_asksOnly _) hhosts hbound allowBypass⟩
  · intro m n _ _ R hR other hbypass host host' hhosts
    rw [checkTree, checkTree, reportTree, reportTree, hbypass]
    exact ⟨Access.related_check hR hhosts hbound allowBypass,
      Access.related_report hR hhosts hbound allowBypass⟩
  · intro htypes host
    exact checkTree_eq_checkWith hbuild htypes host context allowBypass

/-- An application whose checkers each grant so many permissions and no more. -/
def rationing : Host Nat Unit (StateM (Nat → Nat)) where
  ask checker _ _ := do
    let left ← get
    set (Function.update left checker (left checker - 1))
    return left checker != 0
  askBypass _ _ := return true

/-- Where a checker has as many permissions left, it grants alike. -/
theorem related_rationing {registry : Registry Nat} {kept : Nat}
    (hregistry : ∀ type checker, registry.get? type = some checker → checker = kept)
    (bypass : Option Unit) (context : Json) :
    Host.Related (fun _ (x y : StateM (Nat → Nat) _) => ∀ left left', left kept = left' kept →
        (x.run left).1 = (y.run left').1 ∧ (x.run left).2 kept = (y.run left').2 kept)
      registry bypass context rationing rationing where
  ask type checker hget value left left' hleft := by
    obtain rfl := hregistry type checker hget
    show (left checker != 0) = (left' checker != 0) ∧
      Function.update left checker (left checker - 1) checker =
        Function.update left' checker (left' checker - 1) checker
    rw [Function.update_self, Function.update_self, hleft]
    exact ⟨rfl, rfl⟩
  askBypass _ _ left left' hleft := ⟨rfl, hleft⟩

/-- A tree that was built for the first checker of a type keeps asking that one when a second takes
its place, whatever permissions the second has left; while the first stays, the tree is checked like
its expression. -/
theorem kept_tree_independent_replaced :
    let engine : Engine Nat Unit := { registry := .single "role" 0 (by decide) }
    let replaced := engine.after [.change (.removeType "role"), .change (.addType "role" 1)]
    let extended := engine.after [.change (.addType "flag" 1)]
    let permissions := Json.object [("role", .string "admin")]
    ∃ tree, engine.buildTree permissions = .ok tree ∧
      AsksOnly (engine.MayAsk replaced .null)
        (replaced.checkTree rationing.noting tree .null true) ∧
      (∀ left left' : Nat → Nat, left 0 = left' 0 →
        ((replaced.checkTree rationing tree .null true).run left).1 =
          ((engine.checkTree rationing tree .null true).run left').1) ∧
      ∀ host : Host Nat Unit Id, extended.checkTree host tree .null true =
        extended.checkWith host permissions .null true := by
  intro engine replaced extended permissions
  have hbuild : engine.buildTree permissions = .ok ⟨.permission "role" "admin" 0, none⟩ := rfl
  have hafterReplaced := kept_tree_independent hbuild
    [.change (.removeType "role"), .change (.addType "role" 1)] .null true
  have hafterExtended := kept_tree_independent hbuild [.change (.addType "flag" 1)] .null true
  have hregistry : ∀ type checker, engine.registry.get? type = some checker → checker = 0 := by
    intro type checker hget
    have hentry : (type, checker) ∈ [("role", 0)] := Registry.get?_eq_some_iff.1 hget
    cases List.mem_singleton.1 hentry
    rfl
  have hadd : (Registry.add "flag" 1).run engine.registry = .ok () extended.registry := rfl
  have htypes : extended.registry.Extends engine.registry := Registry.extends_of_add hadd
  refine ⟨_, hbuild, (hafterReplaced.1 rationing).1, ?_, ?_⟩
  · intro left left' hleft
    have hrelated := hafterReplaced.2.1 (simulation_states fun left left' => left 0 = left' 0)
      engine rfl rationing rationing (related_rationing hregistry none .null)
    exact (hrelated.1 left left' hleft).1
  · intro host
    exact (hafterExtended.2.2 htypes host).1

/-- The kept tree is granted by the first checker where the second, which is asked for the expression,
has no permission left. -/
example :
    let engine : Engine Nat Unit := { registry := .single "role" 1 (by decide) }
    let left := fun checker => if checker = 0 then 1 else 0
    ((engine.checkTree rationing ⟨.permission "role" "admin" 0, none⟩ .null true).run left).1 =
        .ok true ∧
      ((engine.checkWith rationing (.object [("role", .string "admin")]) .null true).run left).1 =
        .ok false :=
  ⟨rfl, rfl⟩

end Engine

end Clearance
