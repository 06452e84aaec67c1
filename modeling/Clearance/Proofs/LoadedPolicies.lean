import Clearance.Proofs.Framing
import Clearance.Proofs.Growth

/-!
# Loaded policies

Policies are read once when they are loaded and again whenever they are checked.  Until a type is
taken out or other policies are loaded, every policy that has been loaded can be read, so that its
check fails for its context alone.
-/

namespace Clearance

variable {κ β : Type}

namespace PolicySet

/-- A policy that is found is one of the set. -/
theorem mem_policies_of_get? {set : PolicySet} {name : String} {permissions : Json}
    (h : set.get? name = some permissions) : (name, permissions) ∈ set.policies := by
  obtain ⟨before, after, hsplit, -⟩ := List.lookup_eq_some_iff.1 h
  rw [hsplit]
  simp

/-- A policy is not found exactly if its name is not among the names. -/
theorem get?_eq_none_iff {set : PolicySet} {name : String} :
    set.get? name = none ↔ name ∉ set.names := by
  rw [get?, List.lookup_eq_none_iff, names, List.mem_map]
  constructor
  · rintro h ⟨policy, hpolicy, rfl⟩
    simpa using h policy hpolicy
  · intro h policy hpolicy
    exact bne_iff_ne.2 fun hname => h ⟨policy, hpolicy, hname.symm⟩

end PolicySet

namespace Engine

/-! ## Operations that keep policies checkable -/

/-- An operation that takes no type out and loads no policies: a query, the registration of a type,
a change of the bypass checker, or any change that fails. -/
inductive Preserving (engine : Engine κ β) : Operation κ β → Prop
  | query (query : Query κ) : Preserving engine (.query query)
  | addType (name : String) (checker : κ) : Preserving engine (.change (.addType name checker))
  | setBypass (bypass : Option β) : Preserving engine (.change (.setBypass bypass))
  | failing {change : Change κ β} {cause : Failure} {left : Engine κ β}
      (hfails : change.perform.run engine = .error cause left) :
      Preserving engine (.change change)

/-- A run of such operations. -/
def PreservingRun (engine : Engine κ β) (operations : List (Operation κ β)) : Prop :=
  ∀ before operation after, operations = before ++ operation :: after →
    (engine.after before).Preserving operation

/-- Nothing takes a type out of an engine or loads policies in a run without operations. -/
theorem preservingRun_nil (engine : Engine κ β) : engine.PreservingRun [] := by
  intro before operation after hsplit
  simp at hsplit

/-- Such a run is one such operation and then such a run. -/
theorem preservingRun_cons_iff {engine : Engine κ β} {operation : Operation κ β}
    {rest : List (Operation κ β)} :
    engine.PreservingRun (operation :: rest) ↔
      engine.Preserving operation ∧ (engine.next operation).PreservingRun rest := by
  rw [PreservingRun, forall_split_cons]
  rfl

/-- An engine keeps what it can check if it loses no type and keeps its policies. -/
structure Keeps (engine later : Engine κ β) : Prop where
  types : later.registry.Extends engine.registry
  policies : later.policySet = engine.policySet

/-- An engine keeps what it can check as it is. -/
theorem keeps_refl (engine : Engine κ β) : engine.Keeps engine :=
  ⟨engine.registry.extends_refl, rfl⟩

/-- What is kept twice is kept. -/
theorem Keeps.trans {engine later latest : Engine κ β} (h : engine.Keeps later)
    (h' : later.Keeps latest) : engine.Keeps latest :=
  ⟨h'.types.trans h.types, h'.policies.trans h.policies⟩

/-- Such an operation keeps what can be checked. -/
theorem keeps_next {engine : Engine κ β} {operation : Operation κ β}
    (h : engine.Preserving operation) : engine.Keeps (engine.next operation) := by
  cases h with
  | query query => exact engine.keeps_refl
  | setBypass bypass => exact ⟨engine.registry.extends_refl, rfl⟩
  | failing hfails =>
      rw [next_of_error hfails]
      exact engine.keeps_refl
  | addType name checker =>
      cases hperform : (Change.addType name checker).perform.run engine with
      | error cause left =>
          rw [next_of_error hperform]
          exact engine.keeps_refl
      | ok _ changed =>
          rw [next_of_ok hperform]
          rw [Change.perform, Mutation.run_adaptExcept_eq_ok_iff] at hperform
          obtain ⟨registry, hadd, rfl⟩ := run_onTypes_eq_ok_iff.1 hperform
          exact ⟨Registry.extends_of_add hadd, rfl⟩

/-- A run of such operations keeps what can be checked. -/
theorem keeps_after {engine : Engine κ β} {operations : List (Operation κ β)}
    (h : engine.PreservingRun operations) : engine.Keeps (engine.after operations) := by
  induction operations generalizing engine with
  | nil => exact engine.keeps_refl
  | cons operation rest ih =>
      obtain ⟨hoperation, hrest⟩ := preservingRun_cons_iff.1 h
      exact (keeps_next hoperation).trans (ih hrest)

/-! ## Checks of policies -/

section Policies

variable {m : Type → Type} [Monad m] {engine : Engine κ β} {host : Host κ β m} {name : String}
  {permissions context : Json}

/-- A policy is checked like its expression. -/
theorem checkPolicy_of_get? (hget : engine.policySet.get? name = some permissions) :
    engine.checkPolicy host name context =
      engine.check host permissions context >>= fun result => pure (result.mapError .check) := by
  rw [checkPolicy, hget]

/-- A policy that is not loaded is unknown. -/
theorem checkPolicy_of_not_mem (hname : name ∉ engine.policySet.names) :
    engine.checkPolicy host name context = pure (.error (.unknown name)) := by
  rw [checkPolicy, PolicySet.get?_eq_none_iff.2 hname]

end Policies

/-- Every policy that has been loaded can be read as long as what can be checked is kept. -/
theorem exists_buildTree_of_keeps {engine loaded later : Engine κ β} {set : PolicySet}
    (hload : (Change.loadPolicies set).perform.run engine = .ok () loaded)
    (hkeeps : loaded.Keeps later) {name : String} (hname : name ∈ set.names) :
    ∃ permissions tree, later.policySet.get? name = some permissions ∧
      later.buildTree permissions = .ok tree := by
  have hframe : loaded = { engine with settings := set.settings, policySet := set } :=
    frame_of_perform hload
  have hset : later.policySet = set := by rw [hkeeps.policies, hframe]
  have htypes : later.registry.Extends engine.registry := by
    have htypes := hkeeps.types
    rwa [hframe] at htypes
  obtain ⟨permissions, hget⟩ := Option.ne_none_iff_exists'.1 fun hnone =>
    PolicySet.get?_eq_none_iff.1 hnone hname
  obtain ⟨tree, hread⟩ :=
    exists_load_iff.1 ⟨loaded, hload⟩ _ (PolicySet.mem_policies_of_get? hget)
  refine ⟨permissions, tree, by rw [hset, hget], ?_⟩
  exact (Expression.grown_readGuarded htypes permissions).eq_ok hread

/-- **Loaded policies stay checkable.**  After policies have been loaded, and whatever operations
follow that take no type out and load no others, the check of each of them comes to a decision in
every context that is null or an object, and fails for its context in every other.  No other policy
is known. -/
theorem loaded_policies_stay_checkable {m : Type → Type} [Monad m] [LawfulMonad m]
    {engine loaded : Engine κ β} {set : PolicySet}
    (hload : (Change.loadPolicies set).perform.run engine = .ok () loaded)
    {later : List (Operation κ β)} (hlater : loaded.PreservingRun later) (host : Host κ β m)
    (name : String) (context : Json) :
    (name ∈ set.names → context.kind = .null ∨ context.kind = .object →
      Always (fun result => ∃ granted, result = .ok granted)
        ((loaded.after later).checkPolicy host name context)) ∧
    (name ∈ set.names → ¬ (context.kind = .null ∨ context.kind = .object) →
      (loaded.after later).checkPolicy host name context =
        pure (.error (.check (.notAContext context.kind)))) ∧
    (name ∉ set.names →
      (loaded.after later).checkPolicy host name context = pure (.error (.unknown name))) := by
  have hkeeps := keeps_after hlater
  have hcontext := Access.checkContext_eq context
  refine ⟨?_, ?_, ?_⟩
  · intro hname hkind
    obtain ⟨permissions, tree, hget, hbuild⟩ := exists_buildTree_of_keeps hload hkeeps hname
    rw [if_pos hkind] at hcontext
    rw [checkPolicy_of_get? hget]
    refine (always_checkWith hbuild hcontext).bind ?_
    rintro result ⟨granted, rfl⟩
    exact always_pure ⟨granted, rfl⟩
  · intro hname hkind
    obtain ⟨permissions, tree, hget, hbuild⟩ := exists_buildTree_of_keeps hload hkeeps hname
    rw [if_neg hkind] at hcontext
    rw [checkPolicy_of_get? hget, check, checkWith_of_context hbuild hcontext]
    exact pure_bind _ _
  · intro hname
    refine checkPolicy_of_not_mem ?_
    have hframe : loaded = { engine with settings := set.settings, policySet := set } :=
      frame_of_perform hload
    rw [hkeeps.policies, hframe]
    exact hname

/-- A policy for administrators can be checked after a type has been added, a bypass checker has been
set and a policy of an unknown type has been refused; there is no other policy. -/
theorem loaded_policies_stay_checkable_edit :
    let engine : Engine Unit Unit := { registry := .roles }
    let edit : PolicySet := { policies := [("edit", .object [("role", .string "admin")])] }
    let spoilt : PolicySet := { policies := [("edit", .object [("robot", .string "admin")])] }
    let later : List (Operation Unit Unit) := [.change (.addType "flag" ()),
      .change (.setBypass (some ())), .change (.loadPolicies spoilt),
      .query (.checkPolicy "edit" .null)]
    ∃ loaded, (Change.loadPolicies edit).perform.run engine = .ok () loaded ∧
      Always (fun result => ∃ granted, result = .ok granted)
        ((loaded.after later).checkPolicy auditing "edit" .null) ∧
      (loaded.after later).checkPolicy auditing "edit" (.string "home") =
        .error (.check (.notAContext .string)) ∧
      (loaded.after later).checkPolicy auditing "delete" .null = .error (.unknown "delete") := by
  intro engine edit spoilt later
  let loaded : Engine Unit Unit := { engine with policySet := edit }
  have hload : (Change.loadPolicies edit).perform.run engine = .ok () loaded := rfl
  have hrefused : (Change.loadPolicies spoilt).perform.run (loaded.after (later.take 2)) =
      .error (.policyFault (.invalid "edit" (.unknownType "robot")))
        (loaded.after (later.take 2)) := rfl
  have hlater : loaded.PreservingRun later := by
    refine preservingRun_cons_iff.2 ⟨.addType "flag" (), ?_⟩
    refine preservingRun_cons_iff.2 ⟨.setBypass (some ()), ?_⟩
    refine preservingRun_cons_iff.2 ⟨.failing hrefused, ?_⟩
    exact preservingRun_cons_iff.2 ⟨.query _, preservingRun_nil _⟩
  have hedit := loaded_policies_stay_checkable hload hlater auditing "edit"
  have hdelete := loaded_policies_stay_checkable hload hlater auditing "delete" .null
  exact ⟨loaded, hload, (hedit .null).1 (by decide) (Or.inl rfl),
    (hedit (.string "home")).2.1 (by decide) (by decide), hdelete.2.2 (by decide)⟩

end Engine

end Clearance
