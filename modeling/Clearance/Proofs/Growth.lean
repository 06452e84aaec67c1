import Clearance.Proofs.Reader
import Clearance.Proofs.Restriction
import Clearance.Proofs.TypeNames

/-!
# Growing registries

A registry that has all types of another, and perhaps more, reads every expression as the other does.
The one exception is an expression in which the other met a type that it does not have and the larger
one has.
-/

namespace Clearance

variable {κ : Type}

namespace Registry

/-- A registry extends another if it has all types of the other, with the same checkers. -/
def Extends (larger smaller : Registry κ) : Prop :=
  ∀ name checker, smaller.get? name = some checker → larger.get? name = some checker

/-- A registry extends itself. -/
theorem extends_refl (registry : Registry κ) : registry.Extends registry :=
  fun _ _ h => h

/-- An extension of an extension is one. -/
theorem Extends.trans {largest larger smaller : Registry κ} (h : largest.Extends larger)
    (h' : larger.Extends smaller) : largest.Extends smaller :=
  fun name checker hget => h name checker (h' name checker hget)

/-- A registration takes no type out. -/
theorem extends_of_add {registry next : Registry κ} {name : String} {checker : κ}
    (hadd : (add name checker).run registry = .ok () next) : next.Extends registry := by
  intro other found hget
  have hne : other ≠ name := by
    rintro rfl
    obtain ⟨-, hfree⟩ := exists_add_iff.1 ⟨next, hadd⟩
    rw [has, hget] at hfree
    cases hfree
  rw [get?_add_of_ne hadd hne, hget]

end Registry

namespace Expression

/-! ## Results with more types -/

/-- A result with more types is the same, unless the first result was that a type is unknown which is
known now. -/
def Grown {α : Type} (larger : Registry κ) (result grown : Except Fault α) : Prop :=
  grown = result ∨ ∃ name, result = .error (.unknownType name) ∧ larger.has name = true

variable {larger smaller : Registry κ}

/-- A result that does not depend on the types is the same. -/
theorem grown_refl {α : Type} (result : Except Fault α) : Grown larger result result :=
  Or.inl rfl

/-- What is accepted is accepted with more types, with the same result. -/
theorem Grown.eq_ok {α : Type} {result grown : Except Fault α} {a : α}
    (h : Grown larger result grown) (hok : result = .ok a) : grown = .ok a := by
  rcases h with rfl | ⟨name, hfault, -⟩
  · exact hok
  · rw [hok] at hfault
    cases hfault

/-- What is rejected is rejected for the same fault, unless for a type that is known now; no result
with more types is that such a type is unknown. -/
theorem Grown.eq_error_iff {α : Type} {result grown : Except Fault α} {fault : Fault}
    (h : Grown larger result grown) (hfault : result = .error fault)
    (hgrown : ∀ name, grown = .error (.unknownType name) → larger.has name = false) :
    grown = .error fault ↔ ¬ ∃ name, fault = .unknownType name ∧ larger.has name = true := by
  constructor
  · rintro hsame ⟨name, rfl, hname⟩
    rw [hgrown name hsame] at hname
    cases hname
  · intro hknown
    rcases h with rfl | ⟨name, hunknown, hname⟩
    · exact hfault
    · rw [hfault] at hunknown
      exact absurd ⟨name, Except.error.inj hunknown, hname⟩ hknown

/-- Results in sequence grow one after the other. -/
theorem Grown.bind {α γ : Type} {x y : Except Fault α} {f g : α → Except Fault γ}
    (hxy : Grown larger x y) (hfg : ∀ a, Grown larger (f a) (g a)) :
    Grown larger (x >>= f) (y >>= g) := by
  rcases hxy with rfl | ⟨name, rfl, hname⟩
  · cases y with
    | error fault => exact grown_refl _
    | ok a => exact hfg a
  · exact Or.inr ⟨name, rfl, hname⟩

/-- Results for the members of a list grow together. -/
theorem grown_mapM {α γ : Type} {f g : α → Except Fault γ} {xs : List α}
    (h : ∀ x ∈ xs, Grown larger (f x) (g x)) : Grown larger (xs.mapM f) (xs.mapM g) := by
  induction xs with
  | nil => exact grown_refl _
  | cons x xs ih =>
      rw [List.forall_mem_cons] at h
      rw [List.mapM_cons, List.mapM_cons]
      exact h.1.bind fun y => (ih h.2).bind fun ys => grown_refl _

/-! ## Reading with more types -/

/-- A type that is known keeps its checker. -/
theorem grown_get (hextends : larger.Extends smaller) (name : String) :
    Grown larger (smaller.get name) (larger.get name) := by
  rw [Registry.get, Registry.get]
  cases hsmaller : smaller.get? name with
  | some checker =>
      rw [hextends name checker hsmaller]
      exact grown_refl _
  | none =>
      cases hlarger : larger.get? name with
      | none => exact grown_refl _
      | some checker =>
          refine Or.inr ⟨name, rfl, ?_⟩
          rw [Registry.has, hlarger, Option.isSome_some]

/-- Only the key of a type is read with the registry. -/
theorem grown_readKey (hextends : larger.Extends smaller) (scope : Scope κ) (key : String)
    (value : Json) :
    Grown larger (readKey smaller scope key value) (readKey larger scope key value) := by
  rw [readKey, readKey]
  cases Key.ofText key with
  | position => exact grown_refl _
  | noBypass => exact grown_refl _
  | gate g => exact grown_refl _
  | constant b => exact grown_refl _
  | type name =>
      cases scope with
      | some outer => exact grown_refl _
      | none => exact (grown_get hextends name).bind fun checker => grown_refl _

/-- The siblings of a value, read with more types. -/
theorem grown_siblings (hextends : larger.Extends smaller) (scope : Scope κ) (room : Nat)
    (value : Json) :
    Grown larger (siblings smaller scope room value) (siblings larger scope room value) := by
  induction value using Json.induction generalizing scope room with
  | null => exact grown_refl _
  | bool b => exact grown_refl _
  | number n => exact grown_refl _
  | string s => exact grown_refl _
  | array items ih =>
      cases room with
      | zero => exact grown_refl _
      | succ room =>
          rw [siblings_array_succ, siblings_array_succ]
          refine grown_mapM fun item hitem => ?_
          exact (ih item hitem scope room).bind fun inputs => grown_refl _
  | object entries ih =>
      cases room with
      | zero => exact grown_refl _
      | succ room =>
          rw [siblings_object_succ, siblings_object_succ]
          refine grown_mapM fun keyed hkeyed => ?_
          exact (grown_readKey hextends scope keyed.1 keyed.2).bind fun reading =>
            (ih keyed hkeyed reading.scope room).bind fun inputs => grown_refl _

/-- An expression, read with more types. -/
theorem grown_read (hextends : larger.Extends smaller) (raw : Json) :
    Grown larger (read smaller raw) (read larger raw) := by
  have hunit : ∀ value, Grown larger (unit smaller none nestingLimit value)
      (unit larger none nestingLimit value) := fun value =>
    (grown_siblings hextends none nestingLimit value).bind fun inputs => grown_refl _
  cases raw with
  | null => exact grown_refl _
  | number n => exact grown_refl _
  | bool b => exact hunit (.bool b)
  | string s => exact hunit (.string s)
  | array items =>
      cases items with
      | nil => exact grown_refl _
      | cons item rest => exact hunit (.array (item :: rest))
  | object entries =>
      cases entries with
      | nil => exact grown_refl _
      | cons entry rest => exact hunit (.object (entry :: rest))

/-- A guarded expression, read with more types. -/
theorem grown_readGuarded (hextends : larger.Extends smaller) (raw : Json) :
    Grown larger (readGuarded smaller raw) (readGuarded larger raw) := by
  rw [readGuarded_eq, readGuarded_eq]
  refine (grown_refl (parts raw)).bind fun split => ?_
  have hrestriction : Grown larger (split.1.mapM (read smaller)) (split.1.mapM (read larger)) := by
    cases split.1 with
    | none => exact grown_refl _
    | some value => exact (grown_read hextends value).bind fun tree => grown_refl _
  exact hrestriction.bind fun noBypass =>
    (grown_read hextends split.2).bind fun main => grown_refl _

/-- Taking a guarded expression apart never fails for a type. -/
theorem parts_ne_unknownType {raw : Json} {name : String} :
    parts raw ≠ .error (.unknownType name) := by
  intro h
  cases raw with
  | null | bool b | number n | string s | array items => cases h
  | object entries =>
      rw [parts, splitNoBypass] at h
      split at h <;> cases h

/-- A type that a guarded expression fails for is not registered. -/
theorem unknownType_of_readGuarded {registry : Registry κ} {raw : Json} {name : String}
    (h : readGuarded registry raw = .error (.unknownType name)) : registry.has name = false := by
  rw [readGuarded_eq] at h
  rcases bind_eq_error_iff.1 h with hparts | ⟨split, -, h⟩
  · exact absurd hparts parts_ne_unknownType
  rcases bind_eq_error_iff.1 h with hrestriction | ⟨noBypass, -, h⟩
  · cases hsplit : split.1 with
    | none =>
        rw [hsplit] at hrestriction
        cases hrestriction
    | some value =>
        rw [hsplit] at hrestriction
        rcases bind_eq_error_iff.1 hrestriction with hread | ⟨tree, -, hpure⟩
        · exact (unknownType_of_read hread).2
        · cases hpure
  · rcases bind_eq_error_iff.1 h with hmain | ⟨main, -, hpure⟩
    · exact (unknownType_of_read hmain).2
    · cases hpure

/-- **More types change no result but that a type is missing.**  An expression that is accepted is
accepted by every registry that has these types and more, as the same tree with the same checkers.
One that is rejected is rejected for the same fault, unless the fault is that a type is unknown
which the larger registry has; that fault never stays.  The same holds of guarded expressions. -/
theorem more_types_change_no_result (hextends : larger.Extends smaller) (raw : Json) :
    ((∀ tree, read smaller raw = .ok tree → read larger raw = .ok tree) ∧
      ∀ fault, read smaller raw = .error fault →
        (read larger raw = .error fault ↔
          ¬ ∃ name, fault = .unknownType name ∧ larger.has name = true)) ∧
    (∀ tree, readGuarded smaller raw = .ok tree → readGuarded larger raw = .ok tree) ∧
      ∀ fault, readGuarded smaller raw = .error fault →
        (readGuarded larger raw = .error fault ↔
          ¬ ∃ name, fault = .unknownType name ∧ larger.has name = true) := by
  have hread := grown_read hextends raw
  have hguarded := grown_readGuarded hextends raw
  refine ⟨⟨fun tree hok => hread.eq_ok hok, ?_⟩, fun tree hok => hguarded.eq_ok hok, ?_⟩
  · intro fault hfault
    exact hread.eq_error_iff hfault fun name hunknown => (unknownType_of_read hunknown).2
  · intro fault hfault
    exact hguarded.eq_error_iff hfault fun name hunknown => unknownType_of_readGuarded hunknown

/-- After flags have been registered beside roles, a restricted administrator is read as before, a
robot is as unknown as before, and a flag is unknown no more. -/
theorem more_types_change_no_result_flag :
    let smaller : Registry Nat := .single "role" 0 (by decide)
    let admin : Json := .object [("no_bypass", .bool true), ("role", .string "admin")]
    let robot : Json := .object [("role", .string "admin"), ("robot", .string "x")]
    let flag : Json := .object [("flag", .string "x"), ("robot", .string "x")]
    ∃ larger, (Registry.add "flag" 1).run smaller = .ok () larger ∧
      readGuarded larger admin =
        .ok ⟨.permission "role" "admin" 0, some (.constant true)⟩ ∧
      read larger robot = .error (.unknownType "robot") ∧
      read smaller flag = .error (.unknownType "flag") ∧
      read larger flag ≠ .error (.unknownType "flag") := by
  intro smaller admin robot flag
  obtain ⟨larger, hadd⟩ : ∃ larger, (Registry.add "flag" 1).run smaller = .ok () larger :=
    Registry.exists_add_iff.2 ⟨by decide, by decide⟩
  have hextends : larger.Extends smaller := Registry.extends_of_add hadd
  have hflag : larger.has "flag" = true := by
    rw [Registry.has, Registry.get?_add_self hadd, Option.isSome_some]
  have hrobot : larger.has "robot" = false := by
    rw [Registry.has, Registry.get?_add_of_ne hadd (by decide)]
    rfl
  have hunknown : read smaller flag = .error (.unknownType "flag") := rfl
  refine ⟨larger, hadd, ?_, ?_, hunknown, ?_⟩
  · exact (more_types_change_no_result hextends admin).2.1 _ rfl
  · refine ((more_types_change_no_result hextends robot).1.2 _ rfl).2 ?_
    rintro ⟨name, hname, hhas⟩
    cases hname
    rw [hrobot] at hhas
    cases hhas
  · intro hsame
    exact ((more_types_change_no_result hextends flag).1.2 _ hunknown).1 hsame ⟨"flag", rfl, hflag⟩

end Expression

end Clearance
