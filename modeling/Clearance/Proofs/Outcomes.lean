import Clearance.Engine
import Clearance.Proofs.Decisions

/-!
# What decisions come to

A decision that asks an application is a computation of the application, which may keep state.  What
is true of every result of such a computation can be said without running it: whether a check fails
is settled by the expression and the context alone, before anything is asked.
-/

namespace Clearance

variable {κ β : Type} {m : Type → Type} [Monad m] [LawfulMonad m]

/-! ## Results -/

/-- Whatever a computation comes to has a property. -/
def Always {α : Type} (P : α → Prop) (x : m α) : Prop :=
  ∃ y : m {a // P a}, Subtype.val <$> y = x

/-- A known value has its properties. -/
theorem always_pure {α : Type} {P : α → Prop} {a : α} (h : P a) : Always P (pure a : m α) :=
  ⟨pure ⟨a, h⟩, map_pure _ _⟩

/-- What is true of every value is true of every result. -/
theorem always_of_forall {α : Type} {P : α → Prop} (h : ∀ a, P a) (x : m α) : Always P x := by
  refine ⟨(fun a => ⟨a, h a⟩) <$> x, ?_⟩
  rw [Functor.map_map]
  exact id_map x

/-- A computation without effects has the one result. -/
theorem always_id_iff {α : Type} {P : α → Prop} {x : Id α} : Always P x ↔ P x.run := by
  constructor
  · rintro ⟨y, rfl⟩
    exact y.2
  · exact always_pure

/-- What follows from a property of every result is true of every result. -/
theorem Always.imp {α : Type} {P Q : α → Prop} {x : m α} (hx : Always P x)
    (h : ∀ a, P a → Q a) : Always Q x := by
  obtain ⟨y, rfl⟩ := hx
  refine ⟨(fun a => ⟨a.1, h a.1 a.2⟩) <$> y, ?_⟩
  rw [Functor.map_map]

/-- What is made of results with one property has another. -/
theorem Always.bind {α γ : Type} {P : α → Prop} {Q : γ → Prop} {x : m α} {f : α → m γ}
    (hx : Always P x) (hf : ∀ a, P a → Always Q (f a)) : Always Q (x >>= f) := by
  obtain ⟨y, rfl⟩ := hx
  choose g hg using fun a : {a // P a} => hf a.1 a.2
  refine ⟨y >>= g, ?_⟩
  rw [map_bind, bind_map_left]
  exact congrArg (y >>= ·) (funext hg)

/-- What is true after every result of a first computation is true after it. -/
theorem always_bind_of_forall {α γ : Type} {Q : γ → Prop} {x : m α} {f : α → m γ}
    (hf : ∀ a, Always Q (f a)) : Always Q (x >>= f) :=
  (always_of_forall (fun _ => trivial) x).bind fun a _ => hf a

/-! ## Contexts -/

namespace Access

/-- A context that is null or an object is accepted, and any other is not. -/
theorem checkContext_eq (context : Json) :
    checkContext context =
      if context.kind = .null ∨ context.kind = .object then .ok ()
      else .error (.notAContext context.kind) := by
  cases context <;> rfl

variable {host : Host κ β m} {bypass : Option β} {tree : GuardedTree κ} {context : Json}
  {allowBypass : Bool}

/-- A check in a context that is accepted comes to a decision. -/
theorem always_check (hcontext : checkContext context = .ok ()) :
    Always (fun result => ∃ granted, result = .ok granted)
      (check host bypass tree context allowBypass) := by
  rw [check, hcontext]
  refine always_bind_of_forall fun suppressed => always_bind_of_forall fun granted => ?_
  cases granted with
  | true => exact always_pure ⟨true, rfl⟩
  | false => exact always_bind_of_forall fun value => always_pure ⟨value, rfl⟩

/-- A report in a context that is accepted comes to a decision. -/
theorem always_report (hcontext : checkContext context = .ok ()) :
    Always (fun result => ∃ found, result = .ok found)
      (report host bypass tree context allowBypass) := by
  rw [report, hcontext]
  exact always_bind_of_forall fun noBypass => always_bind_of_forall fun bypassAccess =>
    always_bind_of_forall fun main => always_pure ⟨_, rfl⟩

end Access

/-! ## Engines -/

namespace Engine

variable {engine : Engine κ β} {host : Host κ β m} {permissions context : Json}
  {tree : GuardedTree κ} {allowBypass : Bool}

/-- An engine comes to a decision on an expression that is accepted, in a context that is. -/
theorem always_checkWith (hbuild : engine.buildTree permissions = .ok tree)
    (hcontext : Access.checkContext context = .ok ()) :
    Always (fun result => ∃ granted, result = .ok granted)
      (engine.checkWith host permissions context allowBypass) := by
  cases hdebug : engine.settings.debug with
  | false =>
      rw [checkWith_of_off host context allowBypass hdebug hbuild]
      exact Access.always_check hcontext
  | true =>
      rw [checkWith_of_on host context allowBypass hdebug hbuild]
      refine (Access.always_report hcontext).bind ?_
      rintro result ⟨found, rfl⟩
      exact always_pure ⟨found.hasAccess, rfl⟩

/-- An engine asks nothing about an expression that is accepted in a context that is not. -/
theorem checkWith_of_context {fault : Fault} (hbuild : engine.buildTree permissions = .ok tree)
    (hcontext : Access.checkContext context = .error fault) :
    engine.checkWith host permissions context allowBypass = pure (.error fault) := by
  cases hdebug : engine.settings.debug with
  | false => rw [checkWith_of_off host context allowBypass hdebug hbuild, Access.check, hcontext]
  | true =>
      rw [checkWith_of_on host context allowBypass hdebug hbuild, Access.report, hcontext]
      exact pure_bind _ _

end Engine

end Clearance
