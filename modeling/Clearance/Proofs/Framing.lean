import Clearance.Engine.Operation
import Clearance.Proofs.Outcomes
import Clearance.Proofs.Registration

/-!
# What operations leave alone

Operations change an engine in place.  One that fails, however far it has come, leaves the engine as
it was.  One that succeeds changes its own part of the engine: the types, the bypass checker, or the
settings and policies together.  Policies are loaded if every one of them can be read, and otherwise
the first that cannot is named.
-/

namespace Clearance

variable {κ β : Type}

/-! ## Loading policies -/

namespace PolicySet

/-- Policies are valid exactly if each can be read. -/
theorem validateEach_eq_ok_iff {registry : Registry κ} {policies : List (String × Json)} :
    validateEach registry policies = .ok () ↔
      ∀ policy ∈ policies, ∃ tree, Expression.readGuarded registry policy.2 = .ok tree := by
  induction policies with
  | nil => simp [validateEach]
  | cons policy rest ih =>
      rw [validateEach, List.forall_mem_cons]
      cases hread : Expression.readGuarded registry policy.2 with
      | error fault => simp
      | ok tree => simp [ih]

/-- The first policy that cannot be read, after some that can. -/
def FirstInvalid (registry : Registry κ) (policies : List (String × Json)) (name : String)
    (fault : Fault) : Prop :=
  ∃ before policy after, policies = before ++ policy :: after ∧
    (∀ earlier ∈ before, ∃ tree, Expression.readGuarded registry earlier.2 = .ok tree) ∧
    policy.1 = name ∧ Expression.readGuarded registry policy.2 = .error fault

/-- The first policy that cannot be read is the first of all, or it comes after one that can. -/
theorem firstInvalid_cons_iff {registry : Registry κ} {policy : String × Json}
    {rest : List (String × Json)} {name : String} {fault : Fault} :
    FirstInvalid registry (policy :: rest) name fault ↔
      policy.1 = name ∧ Expression.readGuarded registry policy.2 = .error fault ∨
        (∃ tree, Expression.readGuarded registry policy.2 = .ok tree) ∧
          FirstInvalid registry rest name fault := by
  rw [FirstInvalid, exists_split_cons, FirstInvalid]
  refine or_congr (by simp) ?_
  simp only [List.forall_mem_cons]
  constructor
  · rintro ⟨before, invalid, after, hsplit, ⟨hpolicy, hbefore⟩, hinvalid⟩
    exact ⟨hpolicy, before, invalid, after, hsplit, hbefore, hinvalid⟩
  · rintro ⟨hpolicy, before, invalid, after, hsplit, hbefore, hinvalid⟩
    exact ⟨before, invalid, after, hsplit, ⟨hpolicy, hbefore⟩, hinvalid⟩

/-- The first policy that cannot be read is named, with what is wrong with it. -/
theorem validateEach_eq_error_iff {registry : Registry κ} {policies : List (String × Json)}
    {cause : PolicyFault} :
    validateEach registry policies = .error cause ↔
      ∃ name fault, FirstInvalid registry policies name fault ∧ cause = .invalid name fault := by
  induction policies with
  | nil => simp [validateEach, FirstInvalid]
  | cons policy rest ih =>
      rw [validateEach]
      simp only [firstInvalid_cons_iff]
      cases hread : Expression.readGuarded registry policy.2 with
      | ok tree => simp [ih]
      | error fault => simp [eq_comm]

end PolicySet

namespace Engine

/-- The settings and the policies of a set are taken over together, after all policies have been
read. -/
theorem run_loadPolicies (engine : Engine κ β) (set : PolicySet) :
    (loadPolicies set).run engine = match set.validate engine.registry with
      | .ok _ => .ok () { engine with settings := set.settings, policySet := set }
      | .error cause => .error cause engine := by
  rw [loadPolicies, EStateM.run_bind, EStateM.run_get]
  dsimp only
  cases set.validate engine.registry <;> rfl

/-- Policies are loaded, together with their settings, exactly if each can be read with the types
registered. -/
theorem load_eq_ok_iff {engine loaded : Engine κ β} {set : PolicySet} :
    (Change.loadPolicies set).perform.run engine = .ok () loaded ↔
      (∀ policy ∈ set.policies,
        ∃ tree, Expression.readGuarded engine.registry policy.2 = .ok tree) ∧
      { engine with settings := set.settings, policySet := set } = loaded := by
  rw [← PolicySet.validateEach_eq_ok_iff, Change.perform, Mutation.run_adaptExcept_eq_ok_iff,
    run_loadPolicies, PolicySet.validate]
  cases PolicySet.validateEach engine.registry set.policies <;> simp

/-- Policies can be loaded exactly if each can be read with the types registered. -/
theorem exists_load_iff {engine : Engine κ β} {set : PolicySet} :
    (∃ loaded, (Change.loadPolicies set).perform.run engine = .ok () loaded) ↔
      ∀ policy ∈ set.policies,
        ∃ tree, Expression.readGuarded engine.registry policy.2 = .ok tree := by
  simp only [load_eq_ok_iff, exists_and_left, exists_eq', and_true]

/-- Policies are refused for the first of them that cannot be read, and nothing is taken over. -/
theorem load_eq_error_iff {engine left : Engine κ β} {set : PolicySet} {cause : Failure} :
    (Change.loadPolicies set).perform.run engine = .error cause left ↔
      (∃ name fault, PolicySet.FirstInvalid engine.registry set.policies name fault ∧
        cause = .policyFault (.invalid name fault)) ∧ left = engine := by
  have hvalidate : (Change.loadPolicies set).perform.run engine = .error cause left ↔
      (∃ found, PolicySet.validateEach engine.registry set.policies = .error found ∧
        cause = .policyFault found) ∧ left = engine := by
    rw [Change.perform, Mutation.run_adaptExcept_eq_error_iff, run_loadPolicies,
      PolicySet.validate]
    cases PolicySet.validateEach engine.registry set.policies <;>
      simp [@eq_comm _ left, @eq_comm _ cause, and_comm]
  rw [hvalidate]
  refine and_congr_left fun _ => ?_
  constructor
  · rintro ⟨found, hfound, rfl⟩
    obtain ⟨name, fault, hfirst, rfl⟩ := PolicySet.validateEach_eq_error_iff.1 hfound
    exact ⟨name, fault, hfirst, rfl⟩
  · rintro ⟨name, fault, hfirst, rfl⟩
    exact ⟨_, PolicySet.validateEach_eq_error_iff.2 ⟨name, fault, hfirst, rfl⟩, rfl⟩

/-! ## Changes of the types -/

section Types

variable {α : Type} {x : Mutation (Registry κ) Fault α} {engine changed left : Engine κ β}

/-- A change of the types changes them and nothing else, if it succeeds. -/
theorem run_onTypes_eq_ok_iff {value : α} :
    (onTypes x).run engine = .ok value changed ↔
      ∃ registry, x.run engine.registry = .ok value registry ∧
        { engine with registry } = changed := by
  rw [EStateM.run, onTypes]
  cases x.run engine.registry <;> simp [and_assoc]

/-- A change of the types that fails leaves what it has come to. -/
theorem run_onTypes_eq_error_iff {fault : Fault} :
    (onTypes x).run engine = .error fault left ↔
      ∃ registry, x.run engine.registry = .error fault registry ∧
        { engine with registry } = left := by
  rw [EStateM.run, onTypes]
  cases x.run engine.registry <;> simp [and_assoc]

/-- What a change of the types leaves. -/
theorem leaves_onTypes (x : Mutation (Registry κ) Fault α) (engine : Engine κ β) :
    (onTypes x).leaves engine = { engine with registry := x.leaves engine.registry } := by
  rw [Mutation.leaves, EStateM.run, onTypes, Mutation.leaves]
  cases x.run engine.registry <;> rfl

/-- An atomic change of registries is an atomic change of the types. -/
theorem atomic_onTypes (hx : Mutation.Atomic x) :
    Mutation.Atomic (onTypes x : Mutation (Engine κ β) Fault α) := by
  intro engine fault left hfails
  obtain ⟨registry, hregistry, rfl⟩ := run_onTypes_eq_error_iff.1 hfails
  rw [hx engine.registry fault registry hregistry]

end Types

/-- The change of the registry that an operation consists of, if it is one on the types. -/
def typeChange? : Operation κ β → Option (Registry.Change κ)
  | .change (.addType name checker) => some (.add name checker)
  | .change (.removeType name) => some (.remove name)
  | .change (.setTypes types) => some (.set types)
  | .change .clearTypes => some .clear
  | _ => none

/-- An operation on the types performs its change of the registry. -/
theorem perform_eq_of_typeChange? {change : Change κ β} {typeChange : Registry.Change κ}
    (htype : typeChange? (.change change) = some typeChange) :
    change.perform = EStateM.adaptExcept .fault (onTypes typeChange.perform) := by
  cases change <;> cases htype <;> rfl

/-! ## Atomic changes -/

/-- Changes of engines are atomic. -/
theorem atomic_perform (change : Change κ β) : Mutation.Atomic change.perform := by
  have htypes : ∀ typeChange, typeChange? (.change change) = some typeChange →
      Mutation.Atomic change.perform := by
    intro typeChange htype
    rw [perform_eq_of_typeChange? htype]
    exact (atomic_onTypes (Registry.atomic_perform typeChange)).adaptExcept Failure.fault
  cases change with
  | addType name checker => exact htypes _ rfl
  | removeType name => exact htypes _ rfl
  | setTypes types => exact htypes _ rfl
  | clearTypes => exact htypes _ rfl
  | setBypass bypass => exact Mutation.atomic_modify _
  | loadPolicies set => exact fun _ _ _ hfails => (load_eq_error_iff.1 hfails).2

/-- After a change that fails the engine is as it was. -/
theorem next_of_error {engine left : Engine κ β} {change : Change κ β} {cause : Failure}
    (hfails : change.perform.run engine = .error cause left) :
    engine.next (.change change) = engine :=
  (Mutation.leaves_of_error hfails).trans (atomic_perform change engine cause left hfails)

/-- After a change that succeeds the engine is the changed one. -/
theorem next_of_ok {engine changed : Engine κ β} {change : Change κ β}
    (hperform : change.perform.run engine = .ok () changed) :
    engine.next (.change change) = changed :=
  Mutation.leaves_of_ok hperform

/-! ## Frames -/

/-- What an operation that succeeds makes of an engine. -/
def Frame (engine next : Engine κ β) : Operation κ β → Prop
  | .change (.addType _ _) | .change (.removeType _) | .change (.setTypes _)
  | .change .clearTypes => ∃ registry, next = { engine with registry }
  | .change (.setBypass bypass) => next = { engine with bypass }
  | .change (.loadPolicies set) =>
    next = { engine with settings := set.settings, policySet := set }
  | .query _ => next = engine

/-- A change that succeeds keeps to its part of the engine. -/
theorem frame_of_perform {engine changed : Engine κ β} {change : Change κ β}
    (hperform : change.perform.run engine = .ok () changed) :
    engine.Frame changed (.change change) := by
  have htypes : ∀ typeChange, typeChange? (.change change) = some typeChange →
      ∃ registry, changed = { engine with registry } := by
    intro typeChange htype
    rw [perform_eq_of_typeChange? htype, Mutation.run_adaptExcept_eq_ok_iff] at hperform
    obtain ⟨registry, -, rfl⟩ := run_onTypes_eq_ok_iff.1 hperform
    exact ⟨registry, rfl⟩
  cases change with
  | addType name checker => exact htypes _ rfl
  | removeType name => exact htypes _ rfl
  | setTypes types => exact htypes _ rfl
  | clearTypes => exact htypes _ rfl
  | setBypass bypass =>
      cases hperform
      rfl
  | loadPolicies set =>
      obtain ⟨-, rfl⟩ := load_eq_ok_iff.1 hperform
      rfl

/-- The types are changed by the operations on types, one by one, and by nothing else. -/
theorem registry_next (engine : Engine κ β) (operation : Operation κ β) :
    (engine.next operation).registry =
      match typeChange? operation with
      | some typeChange => engine.registry.next typeChange
      | none => engine.registry := by
  cases operation with
  | query query => rfl
  | change change =>
      cases htype : typeChange? (.change change) with
      | some typeChange =>
          rw [next, perform_eq_of_typeChange? htype, Mutation.leaves_adaptExcept, leaves_onTypes]
          rfl
      | none =>
          cases hperform : change.perform.run engine with
          | error cause left => rw [next_of_error hperform]
          | ok _ changed =>
              rw [next_of_ok hperform]
              have hframe := frame_of_perform hperform
              cases change with
              | addType name checker => cases htype
              | removeType name => cases htype
              | setTypes types => cases htype
              | clearTypes => cases htype
              | setBypass bypass => rw [show changed = { engine with bypass } from hframe]
              | loadPolicies set =>
                  rw [show changed = { engine with settings := set.settings, policySet := set }
                    from hframe]

/-- After a run the types are those after its operations on types alone. -/
theorem registry_after (engine : Engine κ β) (operations : List (Operation κ β)) :
    (engine.after operations).registry =
      engine.registry.after (operations.filterMap typeChange?) := by
  induction operations generalizing engine with
  | nil => rfl
  | cons operation rest ih =>
      show ((engine.next operation).after rest).registry = _
      rw [ih, registry_next, List.filterMap_cons]
      cases typeChange? operation <;> rfl

/-! ## Runs -/

section Runs

variable {m : Type → Type} [Monad m] [LawfulMonad m]

/-- What performing a change comes to, and what it leaves. -/
theorem run_perform_change (host : Host κ β m) (change : Change κ β) (engine : Engine κ β) :
    (perform host (.change change)).run engine = match change.perform.run engine with
      | .ok _ changed => pure (.done, changed)
      | .error cause left => pure (.failed cause, left) := by
  rw [perform, StateT.run_bind, StateT.run_get, pure_bind]
  cases change.perform.run engine <;> simp

/-- A query is answered from the engine, which is left as it is. -/
theorem run_perform_query (host : Host κ β m) (query : Query κ) (engine : Engine κ β) :
    (perform host (.query query)).run engine = do
      match ← answer host engine query with
      | .ok answer => return (.answer answer, engine)
      | .error cause => return (.failed cause, engine) := by
  rw [perform, StateT.run_bind, StateT.run_get, pure_bind, StateT.run_bind, StateT.run_lift,
    bind_assoc]
  refine bind_congr fun result => ?_
  cases result <;> simp

/-- Performing an operation leaves the next engine. -/
theorem always_next (host : Host κ β m) (engine : Engine κ β) (operation : Operation κ β) :
    Always (fun run => run.2 = engine.next operation) ((perform host operation).run engine) := by
  cases operation with
  | change change =>
      rw [run_perform_change]
      cases hperform : change.perform.run engine with
      | ok _ changed => exact always_pure (Mutation.leaves_of_ok hperform).symm
      | error cause left => exact always_pure (Mutation.leaves_of_error hperform).symm
  | query query =>
      rw [run_perform_query]
      refine always_bind_of_forall fun result => ?_
      cases result <;> exact always_pure rfl

/-- Performing operations one after the other leaves the engine after them. -/
theorem always_after (host : Host κ β m) (engine : Engine κ β)
    (operations : List (Operation κ β)) :
    Always (fun run => run.2 = engine.after operations)
      ((performEach host operations).run engine) := by
  induction operations generalizing engine with
  | nil => exact always_pure rfl
  | cons operation rest ih =>
      rw [performEach, List.mapM_cons, StateT.run_bind]
      refine (always_next host engine operation).bind ?_
      rintro ⟨first, next⟩ rfl
      rw [StateT.run_bind]
      refine (ih _).bind ?_
      rintro ⟨others, after⟩ rfl
      exact always_pure rfl

/-- An operation that fails leaves the engine as it was, and one that succeeds keeps to its part. -/
theorem always_unchanged_or_frame (host : Host κ β m) (engine : Engine κ β)
    (operation : Operation κ β) :
    Always (fun run => (∃ cause, run.1 = .failed cause) ∧ run.2 = engine ∨
        (∀ cause, run.1 ≠ .failed cause) ∧ engine.Frame run.2 operation)
      ((perform host operation).run engine) := by
  cases operation with
  | change change =>
      rw [run_perform_change]
      cases hperform : change.perform.run engine with
      | error cause left =>
          exact always_pure
            (Or.inl ⟨⟨cause, rfl⟩, atomic_perform change engine cause left hperform⟩)
      | ok _ changed => exact always_pure (Or.inr ⟨by simp, frame_of_perform hperform⟩)
  | query query =>
      rw [run_perform_query]
      refine always_bind_of_forall fun result => ?_
      cases result with
      | error cause => exact always_pure (Or.inl ⟨⟨cause, rfl⟩, rfl⟩)
      | ok answer => exact always_pure (Or.inr ⟨by simp, rfl⟩)

/-- **Operations are atomic and keep to their part of the engine.**  Whatever operations have led to
an engine, one more that fails leaves it as it was, and one that succeeds changes its own part alone;
over the whole run the types are those after the operations on types alone.  Policies are loaded if
each of them can be read with the types registered, and are otherwise refused for the first that
cannot. -/
theorem operations_atomic_and_framed (start : Engine κ β) (history : List (Operation κ β))
    (host : Host κ β m) :
    let engine := start.after history
    Always (fun run => run.2 = engine) ((performEach host history).run start) ∧
    (∀ operation, Always (fun run =>
      (∃ cause, run.1 = .failed cause) ∧ run.2 = engine ∨
        (∀ cause, run.1 ≠ .failed cause) ∧ engine.Frame run.2 operation)
      ((perform host operation).run engine)) ∧
    engine.registry = start.registry.after (history.filterMap typeChange?) ∧
    (∀ set, (∃ loaded, (Change.loadPolicies set).perform.run engine = .ok () loaded) ↔
      ∀ policy ∈ set.policies,
        ∃ tree, Expression.readGuarded engine.registry policy.2 = .ok tree) ∧
    ∀ set cause left, (Change.loadPolicies set).perform.run engine = .error cause left ↔
      (∃ name fault, PolicySet.FirstInvalid engine.registry set.policies name fault ∧
        cause = .policyFault (.invalid name fault)) ∧ left = engine := by
  intro engine
  exact ⟨always_after host start history, always_unchanged_or_frame host engine,
    registry_after start history, fun _ => exists_load_iff, fun _ _ _ => load_eq_error_iff⟩

end Runs

/-- A removal of a type that is not there changes nothing, and neither does a replacement whose second
type has an invalid name.  Of two policies that cannot be read the first is named, and nothing is
loaded. -/
theorem operations_atomic_and_framed_refused :
    let start : Engine Unit Unit := { registry := .roles }
    let history : List (Operation Unit Unit) := [.change (.addType "flag" ()),
      .change (.setBypass (some ())), .change (.removeType "robot"),
      .change (.setTypes [("robot", ()), ("or", ())])]
    let set : PolicySet := { policies := [("edit", .object [("role", .string "admin")]),
      ("delete", .object [("robot", .string "admin")]), ("view", .null)] }
    let host : Host Unit Unit Id := { ask := fun _ _ _ => false, askBypass := fun _ _ => false }
    (start.after history).registry.names = ["flag", "role"] ∧
      ((performEach host history).run start).run.2 = start.after history ∧
      (Change.loadPolicies set).perform.run (start.after history) =
        .error (.policyFault (.invalid "delete" (.unknownType "robot"))) (start.after history) ∧
      ((perform host (.change (.loadPolicies set))).run (start.after history)).run.2 =
        start.after history := by
  intro start history set host
  obtain ⟨hrun, hnext, htypes, -, hrefused⟩ := operations_atomic_and_framed start history host
  have hfirst : PolicySet.FirstInvalid (start.after history).registry set.policies "delete"
      (.unknownType "robot") := by
    refine ⟨[("edit", .object [("role", .string "admin")])], _, _, rfl, ?_, rfl, rfl⟩
    rw [List.forall_mem_singleton]
    exact ⟨⟨.permission "role" "admin" (), none⟩, rfl⟩
  have herror := (hrefused set _ _).2 ⟨⟨_, _, hfirst, rfl⟩, rfl⟩
  have hafter := always_id_iff.1 hrun
  refine ⟨?_, hafter, herror, ?_⟩
  · rw [htypes]
    rfl
  · rcases always_id_iff.1 (hnext (.change (.loadPolicies set))) with ⟨-, hsame⟩ | ⟨hdone, -⟩
    · exact hsame
    · refine absurd ?_ (hdone (.policyFault (.invalid "delete" (.unknownType "robot"))))
      rw [run_perform_change, herror]
      rfl

end Engine

end Clearance
