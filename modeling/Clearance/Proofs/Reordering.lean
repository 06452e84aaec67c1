import Clearance.Proofs.Grammar
import Clearance.Proofs.Meaning
import Clearance.Proofs.Restriction

/-!
# Reordered expressions

An expression is reordered by permuting the items of arrays and the entries of objects, at any depth.
The order decides which questions are asked and which fault is found first; where the answers depend
on the question alone, it decides neither whether the expression is accepted nor whether it grants
access.
-/

namespace Clearance

variable {κ β : Type}

/-! ## Reordering -/

/-- Values that differ in the order of items and entries only, at any depth. -/
inductive Reordered : Json → Json → Prop
  | scalar {value : Json} (hscalar : value.isCollection = false) : Reordered value value
  | array {items permuted items' : List Json} (hitems : List.Forall₂ Reordered items permuted)
      (hperm : permuted.Perm items') : Reordered (.array items) (.array items')
  | object {entries permuted entries' : List (String × Json)}
      (hkeys : entries.map Prod.fst = permuted.map Prod.fst)
      (hvalues : List.Forall₂ Reordered (entries.map Prod.snd) (permuted.map Prod.snd))
      (hperm : permuted.Perm entries') : Reordered (.object entries) (.object entries')

namespace Reordered

/-- Induction over reordered values, with the hypothesis for items and values that correspond. -/
@[elab_as_elim]
theorem induction {P : Json → Json → Prop}
    (scalar : ∀ value, value.isCollection = false → P value value)
    (array : ∀ items permuted items',
      List.Forall₂ (fun item item' => Reordered item item' ∧ P item item') items permuted →
      permuted.Perm items' → P (.array items) (.array items'))
    (object : ∀ entries permuted entries',
      List.Forall₂ (fun keyed keyed' => keyed.1 = keyed'.1 ∧
        Reordered keyed.2 keyed'.2 ∧ P keyed.2 keyed'.2) entries permuted →
      permuted.Perm entries' → P (.object entries) (.object entries'))
    {x y : Json} (h : Reordered x y) : P x y := by
  induction x using Json.induction generalizing y with
  | null | bool b | number n | string s =>
      cases h with
      | scalar hscalar => exact scalar _ hscalar
  | array items ih =>
      cases h with
      | scalar hscalar => cases hscalar
      | array hitems hperm =>
          exact array _ _ _ (forall₂_imp_of_mem (fun item hitem _ h => ⟨h, ih item hitem h⟩) hitems)
            hperm
  | object entries ih =>
      cases h with
      | scalar hscalar => cases hscalar
      | object hkeys hvalues hperm =>
          have hentries := forall₂_entries_iff.2 ⟨hkeys, hvalues⟩
          exact object _ _ _ (forall₂_imp_of_mem
            (fun keyed hkeyed _ h => ⟨h.1, h.2, ih keyed hkeyed h.2⟩) hentries) hperm

/-- Every value is reordered to itself. -/
theorem refl (value : Json) : Reordered value value := by
  induction value using Json.induction with
  | null | bool b | number n | string s => exact .scalar rfl
  | array items ih => exact .array (List.forall₂_same.2 ih) (.refl _)
  | object entries ih =>
      refine .object rfl (List.forall₂_same.2 fun value hvalue => ?_) (.refl _)
      obtain ⟨keyed, hkeyed, rfl⟩ := List.mem_map.1 hvalue
      exact ih keyed hkeyed

end Reordered

/-- A property of all members carries over to members that correspond in another order. -/
theorem forall_mem_iff_of_reordered {α : Type} {R : α → α → Prop} {P Q : α → Prop}
    {xs zs ys : List α} (h : List.Forall₂ R xs zs) (hperm : zs.Perm ys)
    (hPQ : ∀ x z, R x z → (P x ↔ Q z)) : (∀ x ∈ xs, P x) ↔ ∀ y ∈ ys, Q y := by
  rw [forall_mem_iff_of_forall₂ h fun x _ z => hPQ x z]
  simp only [hperm.mem_iff]

namespace Reordered

variable {x y : Json}

/-- Reordered values are collections together. -/
theorem isCollection_eq (h : Reordered x y) : x.isCollection = y.isCollection := by
  cases h <;> rfl

/-- Reordered values give equally many inputs. -/
theorem width_eq (h : Reordered x y) : x.width = y.width := by
  cases h with
  | scalar => rfl
  | array hitems hperm => rw [Json.width_array, Json.width_array, hitems.length_eq, hperm.length_eq]
  | object hkeys hvalues hperm =>
      have hentries := forall₂_entries_iff.2 ⟨hkeys, hvalues⟩
      rw [Json.width_object, Json.width_object, hentries.length_eq, hperm.length_eq]

/-- Reordered values nest no deeper than each other. -/
theorem nesting_le_iff (h : Reordered x y) : ∀ n, x.nesting ≤ n ↔ y.nesting ≤ n := by
  refine Reordered.induction ?scalar ?array ?object h
  case scalar =>
    intro value _ n
    rfl
  case array =>
    intro items permuted items' hitems hperm n
    rw [Json.nesting, Json.nesting]
    cases n with
    | zero => simp
    | succ n =>
        rw [Nat.add_le_add_iff_right, Nat.add_le_add_iff_right, Json.nestingItems_le_iff,
          Json.nestingItems_le_iff]
        exact forall_mem_iff_of_reordered hitems hperm fun item item' h => h.2 n
  case object =>
    intro entries permuted entries' hentries hperm n
    rw [Json.nesting, Json.nesting]
    cases n with
    | zero => simp
    | succ n =>
        rw [Nat.add_le_add_iff_right, Nat.add_le_add_iff_right, Json.nestingEntries_le_iff,
          Json.nestingEntries_le_iff]
        exact forall_mem_iff_of_reordered hentries hperm fun keyed keyed' h => h.2.2 n

/-- Reordered values are empty collections together. -/
theorem empty_iff (h : Reordered x y) :
    (x = .array [] ∨ x = .object []) ↔ (y = .array [] ∨ y = .object []) := by
  rw [← Json.width_eq_zero_iff, ← Json.width_eq_zero_iff, h.width_eq]

/-! ## Acceptance -/

/-- Reordered values follow the same rule as the root, an item or an entry. -/
theorem stepRule_iff (h : Reordered x y) (registry : Registry κ) (path : Path) :
    StepRule registry path x ↔ StepRule registry path y := by
  rcases path with - | ⟨- | key, outer⟩
  · simp [StepRule, h.width_eq]
  · simp [StepRule, h.width_eq]
  · cases hkey : Key.ofText key <;>
      simp [StepRule, hkey, h.width_eq, h.isCollection_eq, Gate.takes_iff]

/-- Reordered values obey the rules together. -/
theorem obeys_iff (h : Reordered x y) (registry : Registry κ) :
    ∀ above, Obeys registry above x ↔ Obeys registry above y := by
  refine Reordered.induction ?scalar ?array ?object h
  case scalar =>
    intro value _ above
    rfl
  case array =>
    intro items permuted items' hitems hperm above
    rw [obeys_array_iff, obeys_array_iff]
    refine forall_mem_iff_of_reordered hitems hperm fun item item' h => ?_
    rw [h.1.stepRule_iff, h.2]
  case object =>
    intro entries permuted entries' hentries hperm above
    rw [obeys_object_iff, obeys_object_iff]
    refine forall_mem_iff_of_reordered hentries hperm fun keyed keyed' h => ?_
    rw [h.2.1.stepRule_iff, h.2.2, h.1]

end Reordered

namespace Reordered

variable {x y : Json}

/-- Reordered expressions are accepted together. -/
theorem exists_read_iff (h : Reordered x y) (registry : Registry κ) :
    (∃ tree, Expression.read registry x = .ok tree) ↔
      ∃ tree, Expression.read registry y = .ok tree := by
  rw [Expression.exists_read_iff_obeys, Expression.exists_read_iff_obeys, h.empty_iff,
    h.nesting_le_iff, h.obeys_iff, h.width_eq]

/-! ## Meaning -/

section Meaning

variable {answer : String → String → Id Bool}

/-- The loop of a gate over known inputs does not depend on their order. -/
theorem loop_eq (g : Gate) {inputs inputs' : List (Id Bool)} (hperm : inputs.Perm inputs') :
    g.loop inputs = g.loop inputs' := by
  have hknown : ∀ inputs : List (Id Bool), List.map (pure : Bool → Id Bool) inputs = inputs :=
    List.map_id
  have hloop := Gate.loop_perm g hperm
  rwa [hknown, hknown] at hloop

/-- Values whose inputs are the same but for their order mean the same. -/
theorem meaningOfValue_eq {type : Option String} {x y : Json}
    (hperm : (Expression.meaningsOfInputs answer type x).Perm
      (Expression.meaningsOfInputs answer type y)) :
    Expression.meaningOfValue answer type x = Expression.meaningOfValue answer type y := by
  rw [Expression.meaningOfValue_eq_untilTrue, Expression.meaningOfValue_eq_untilTrue]
  exact loop_eq .or hperm

/-- Entries with the same key, whose values have the same inputs but for their order, mean the
same. -/
theorem meaningOfEntry_eq {type : Option String} {keyed keyed' : String × Json}
    (hkey : keyed.1 = keyed'.1)
    (hperm : ∀ type, (Expression.meaningsOfInputs answer type keyed.2).Perm
      (Expression.meaningsOfInputs answer type keyed'.2)) :
    Expression.meaningOfEntry answer type keyed = Expression.meaningOfEntry answer type keyed' := by
  rw [Expression.meaningOfEntry, Expression.meaningOfEntry, hkey]
  cases Key.ofText keyed'.1 with
  | gate g => exact loop_eq g (hperm type)
  | type name => exact meaningOfValue_eq (hperm (some name))
  | position | noBypass | constant b => exact meaningOfValue_eq (hperm type)

/-- Reordered values give the same inputs in another order. -/
theorem meaningsOfInputs_perm (h : Reordered x y) :
    ∀ type, (Expression.meaningsOfInputs answer type x).Perm
      (Expression.meaningsOfInputs answer type y) := by
  refine Reordered.induction ?scalar ?array ?object h
  case scalar =>
    intro value _ type
    rfl
  case array =>
    intro items permuted items' hitems hperm type
    -- corresponding items mean the same, so that only the permutation is left
    have hmeanings : items.map (Expression.meaningOfValue answer type) =
        permuted.map (Expression.meaningOfValue answer type) :=
      forall₂_eq_iff_map_eq.1 (hitems.imp fun _ _ h => meaningOfValue_eq (h.2 type))
    rw [Expression.meaningsOfInputs, Expression.meaningsOfInputs,
      Expression.meaningsOfItems_eq_map, Expression.meaningsOfItems_eq_map, hmeanings]
    exact hperm.map _
  case object =>
    intro entries permuted entries' hentries hperm type
    have hmeanings : entries.map (Expression.meaningOfEntry answer type) =
        permuted.map (Expression.meaningOfEntry answer type) :=
      forall₂_eq_iff_map_eq.1 (hentries.imp fun _ _ h => meaningOfEntry_eq h.1 h.2.2)
    rw [Expression.meaningsOfInputs, Expression.meaningsOfInputs,
      Expression.meaningsOfEntries_eq_map, Expression.meaningsOfEntries_eq_map, hmeanings]
    exact hperm.map _

/-- Reordered expressions mean the same. -/
theorem meaning_eq (h : Reordered x y) :
    Expression.meaning answer x = Expression.meaning answer y := by
  by_cases hempty : x = .array [] ∨ x = .object []
  · rcases hempty with rfl | rfl <;> rcases h.empty_iff.1 (by simp) with rfl | rfl <;> rfl
  · rw [Expression.meaning_eq_meaningOfValue hempty,
      Expression.meaning_eq_meaningOfValue (mt h.empty_iff.2 hempty)]
    exact meaningOfValue_eq (h.meaningsOfInputs_perm none)

end Meaning

/-- The trees of reordered expressions are decided alike. -/
theorem eval_eq (h : Reordered x y) {registry : Registry κ} {a b : Tree κ}
    (hx : Expression.read registry x = .ok a) (hy : Expression.read registry y = .ok b)
    (ask : Asking κ Id) (context : Json) : a.eval ask context = b.eval ask context := by
  have hmeaning : ∀ {raw : Json} {tree : Tree κ}, Expression.read registry raw = .ok tree →
      tree.eval ask context =
        Expression.meaning (Expression.answerOf registry ask context) raw := by
    intro raw tree hread
    rw [← Tree.eval_labelled]
    refine Expression.eval_labelled_of_read ?_ hread
    intro name checker s hget
    rw [Expression.answerOf, hget]
  rw [hmeaning hx, hmeaning hy, h.meaning_eq]

/-! ## Guarded expressions -/

/-- Reordered expressions have parts together, and the parts are reordered. -/
theorem parts_cases (h : Reordered x y) :
    (∃ fault, Expression.parts x = .error fault ∧ Expression.parts y = .error fault) ∨
      ∃ restriction main restriction' main', Expression.parts x = .ok (restriction, main) ∧
        Expression.parts y = .ok (restriction', main') ∧
        Option.Rel Reordered restriction restriction' ∧ Reordered main main' := by
  cases h with
  | scalar hscalar =>
      cases x with
      | array | object => cases hscalar
      | null | bool | number | string =>
          exact Or.inr ⟨none, _, none, _, rfl, rfl, .none, .scalar rfl⟩
  | array hitems hperm => exact Or.inr ⟨none, _, none, _, rfl, rfl, .none, .array hitems hperm⟩
  | @object entries permuted entries' hkeys hvalues hperm =>
      obtain ⟨hfault, hsplit⟩ := Expression.splitNoBypass_perm hperm
      rcases Expression.splitNoBypass_cases (forall₂_entries_iff.2 ⟨hkeys, hvalues⟩) with
        ⟨fault, hx, hz⟩ | ⟨restriction, others, restriction', placed, hx, hz, hrel, hothers⟩
      · rw [Expression.parts, Expression.parts, hx, hfault fault hz]
        exact Or.inl ⟨fault, rfl, rfl⟩
      · obtain ⟨others', hy, hplaces⟩ := hsplit restriction' placed hz
        obtain ⟨hkeys, hvalues⟩ := forall₂_entries_iff.1 hothers
        rw [Expression.parts, Expression.parts, hx, hy]
        exact Or.inr ⟨_, _, _, _, rfl, rfl, hrel, .object hkeys hvalues hplaces⟩

/-- Reordered guarded expressions are accepted together. -/
theorem exists_readGuarded_iff (h : Reordered x y) (registry : Registry κ) :
    (∃ tree, Expression.readGuarded registry x = .ok tree) ↔
      ∃ tree, Expression.readGuarded registry y = .ok tree := by
  rcases h.parts_cases with ⟨fault, hx, hy⟩ | ⟨restriction, _, restriction', _, hx, hy, hrel, hmain⟩
  · simp [Expression.readGuarded_eq, hx, hy, bind, Except.bind]
  · rw [Expression.exists_readGuarded_iff_of_parts hx, Expression.exists_readGuarded_iff_of_parts hy,
      hmain.exists_read_iff]
    cases hrel with
    | none => rfl
    | some hvalue => simp [hvalue.exists_read_iff]

/-- Reordered restrictions hold together. -/
theorem any_eval_eq {registry : Registry κ} {restriction restriction' : Option Json}
    {noBypass noBypass' : Option (Tree κ)} (hrel : Option.Rel Reordered restriction restriction')
    (hread : Option.Rel (fun value tree => Expression.read registry value = .ok tree) restriction
      noBypass)
    (hread' : Option.Rel (fun value tree => Expression.read registry value = .ok tree) restriction'
      noBypass')
    (ask : Asking κ Id) (context : Json) :
    (noBypass.any fun tree => tree.eval ask context) =
      noBypass'.any fun tree => tree.eval ask context := by
  cases hrel with
  | none =>
      cases hread
      cases hread'
      rfl
  | some hvalue =>
      cases hread with
      | some hread =>
          cases hread' with
          | some hread' => exact hvalue.eval_eq hread hread' ask context

/-- Reordered guarded expressions grant access together. -/
theorem grants_eq (h : Reordered x y) {registry : Registry κ} {a b : GuardedTree κ}
    (hx : Expression.readGuarded registry x = .ok a)
    (hy : Expression.readGuarded registry y = .ok b) (host : Host κ β Id) (bypass : Option β)
    (context : Json) (allowBypass : Bool) :
    Access.grants host bypass a context allowBypass =
      Access.grants host bypass b context allowBypass := by
  obtain ⟨restriction, main, hpartsX, hrestriction, hmain⟩ := Expression.readGuarded_eq_ok_iff.1 hx
  obtain ⟨restriction', main', hpartsY, hrestriction', hmain'⟩ :=
    Expression.readGuarded_eq_ok_iff.1 hy
  rcases h.parts_cases with ⟨fault, hfault, -⟩ | ⟨_, _, _, _, hx, hy, hrel, hreordered⟩
  · simp [hpartsX] at hfault
  · cases hpartsX.symm.trans hx
    cases hpartsY.symm.trans hy
    have hrestricts := any_eval_eq hrel hrestriction hrestriction' host.ask context
    rw [Access.grants, Access.grants, Access.grantsByBypass, Access.grantsByBypass, hrestricts,
      hreordered.eval_eq hmain hmain' host.ask context]

end Reordered

/-- **Reordering changes no decision.**  Expressions that differ in the order of items and entries,
at any depth, are accepted together, and a check of one has the same outcome as a check of the
other; in a context that is an object or null the outcome is a decision. -/
theorem reordering_changes_no_decision {x y : Json} (h : Reordered x y) (registry : Registry κ) :
    ((∃ tree, Expression.readGuarded registry x = .ok tree) ↔
      ∃ tree, Expression.readGuarded registry y = .ok tree) ∧
    ∀ a b, Expression.readGuarded registry x = .ok a → Expression.readGuarded registry y = .ok b →
      ∀ (host : Host κ β Id) (bypass : Option β) (context : Json) (allowBypass : Bool),
        Access.check host bypass a context allowBypass =
          Access.check host bypass b context allowBypass ∧
        (context.kind = .null ∨ context.kind = .object →
          ∃ granted, Access.check host bypass a context allowBypass = .ok granted) := by
  refine ⟨h.exists_readGuarded_iff registry, ?_⟩
  intro a b hx hy host bypass context allowBypass
  have hcheck : ∀ tree : GuardedTree κ, Access.check host bypass tree context allowBypass =
      (Access.checkContext context).map fun _ =>
        Access.grants host bypass tree context allowBypass :=
    fun tree => Access.check_eq host bypass tree context allowBypass
  constructor
  · exact (hcheck a).trans
      ((congrArg (fun granted => (Access.checkContext context).map fun _ => granted)
        (h.grants_eq hx hy host bypass context allowBypass)).trans (hcheck b).symm)
  · intro hkind
    refine ⟨Access.grants host bypass a context allowBypass, (hcheck a).trans ?_⟩
    have hcontext : Access.checkContext context = .ok () := by
      rcases hkind with hkind | hkind <;> rw [Access.checkContext, hkind]
    rw [hcontext]
    rfl

/-- Roles beside a restriction of the bypass, and the same in the opposite order. -/
theorem reordering_changes_no_decision_opposite :
    let restriction := ("no_bypass", Json.object [("role", .string "guest")])
    let roles := fun names => ("role", Json.array names)
    ∃ a b, Expression.readGuarded Registry.roles
        (.object [restriction, roles [.string "admin", .string "auditor"]]) = .ok a ∧
      Expression.readGuarded Registry.roles
        (.object [roles [.string "auditor", .string "admin"], restriction]) = .ok b ∧
      Access.check Engine.auditing (some ()) a .null false =
        Access.check Engine.auditing (some ()) b .null false := by
  intro restriction roles
  have hroles : Reordered (.array [.string "admin", .string "auditor"])
      (.array [.string "auditor", .string "admin"]) :=
    .array (.cons (.scalar rfl) (.cons (.scalar rfl) .nil)) (.swap _ _ _)
  have hreordered : Reordered (.object [restriction, roles [.string "admin", .string "auditor"]])
      (.object [roles [.string "auditor", .string "admin"], restriction]) :=
    @Reordered.object _ [restriction, roles [.string "auditor", .string "admin"]] _ rfl
      (.cons (.refl _) (.cons hroles .nil)) (.swap _ _ _)
  exact ⟨_, _, rfl, rfl, ((reordering_changes_no_decision hreordered Registry.roles).2 _ _ rfl rfl
    Engine.auditing (some ()) .null false).1⟩

end Clearance
