import Clearance.Tree.Expression
import Clearance.Tree.Printer
import Mathlib.Data.List.Forall2
import Mathlib.Tactic.Common

/-!
# Induction over values and trees

Values and trees hold lists of their own kind.  The principles here give the hypothesis for every
member of such a list, so that no statement needs a second one about lists; what the recursive
functions do to a list is said in terms of its members.
-/

namespace Clearance

/-! ## Lists of results -/

/-- A bind succeeds with what its second part makes of the result of the first. -/
theorem bind_eq_ok_iff {ε α β : Type} {x : Except ε α} {f : α → Except ε β} {b : β} :
    x >>= f = .ok b ↔ ∃ a, x = .ok a ∧ f a = .ok b := by
  cases x with
  | error fault => simp [bind, Except.bind]
  | ok a => simp [bind, Except.bind]

/-- A bind fails with the fault of its first part, or with that of what is made of its result. -/
theorem bind_eq_error_iff {ε α β : Type} {x : Except ε α} {f : α → Except ε β} {fault : ε} :
    x >>= f = .error fault ↔ x = .error fault ∨ ∃ a, x = .ok a ∧ f a = .error fault := by
  cases x with
  | error cause => simp [bind, Except.bind]
  | ok a => simp [bind, Except.bind]

/-- A list is read exactly if its members are, one by one. -/
theorem mapM_eq_ok_iff {ε α β : Type} {f : α → Except ε β} {xs : List α} {ys : List β} :
    xs.mapM f = .ok ys ↔ List.Forall₂ (fun x y => f x = .ok y) xs ys := by
  induction xs generalizing ys with
  | nil =>
      rw [List.mapM_nil, List.forall₂_nil_left_iff]
      exact ⟨fun h => (Except.ok.inj h).symm, fun h => by rw [h]; rfl⟩
  | cons x xs ih =>
      rw [List.mapM_cons, bind_eq_ok_iff, List.forall₂_cons_left_iff]
      constructor
      · rintro ⟨y, hy, h⟩
        obtain ⟨zs, hzs, h⟩ := bind_eq_ok_iff.1 h
        exact ⟨y, zs, hy, ih.1 hzs, (Except.ok.inj h).symm⟩
      · rintro ⟨y, zs, hy, hzs, rfl⟩
        refine ⟨y, hy, ?_⟩
        rw [ih.2 hzs]
        rfl

/-- Lists whose members are read alike, one by one, are read alike. -/
theorem mapM_eq_of_forall₂ {ε α β γ : Type} {f : α → Except ε γ} {g : β → Except ε γ} {xs : List α}
    {ys : List β} (h : List.Forall₂ (fun x y => f x = g y) xs ys) : xs.mapM f = ys.mapM g := by
  induction h with
  | nil => rfl
  | cons hxy _ ih => rw [List.mapM_cons, List.mapM_cons, hxy, ih]

/-- A list fails with the fault of its first member that fails. -/
theorem mapM_eq_error_iff {ε α β : Type} {f : α → Except ε β} {xs : List α} {fault : ε} :
    xs.mapM f = .error fault ↔ ∃ before x after, xs = before ++ x :: after ∧
      (∀ y ∈ before, ∃ z, f y = .ok z) ∧ f x = .error fault := by
  induction xs with
  | nil => simp [pure, Except.pure]
  | cons x xs ih =>
      rw [List.mapM_cons, bind_eq_error_iff]
      constructor
      · rintro (hfirst | ⟨y, hy, h⟩)
        · exact ⟨[], x, xs, rfl, by simp, hfirst⟩
        · rcases bind_eq_error_iff.1 h with hrest | ⟨ys, -, hpure⟩
          · obtain ⟨before, z, after, rfl, hbefore, hz⟩ := ih.1 hrest
            exact ⟨x :: before, z, after, rfl, List.forall_mem_cons.2 ⟨⟨y, hy⟩, hbefore⟩, hz⟩
          · cases hpure
      · rintro ⟨before, z, after, hsplit, hbefore, hz⟩
        cases before with
        | nil =>
            obtain ⟨rfl, rfl⟩ := List.cons.inj hsplit
            exact Or.inl hz
        | cons first rest =>
            obtain ⟨rfl, rfl⟩ := List.cons.inj hsplit
            obtain ⟨⟨y, hy⟩, hrest⟩ := List.forall_mem_cons.1 hbefore
            have hfails := ih.2 ⟨rest, z, after, rfl, hrest, hz⟩
            exact Or.inr ⟨y, hy, bind_eq_error_iff.2 (Or.inl hfails)⟩

/-- A list fails with the fault of one of its members. -/
theorem exists_mem_of_mapM_eq_error {ε α β : Type} {f : α → Except ε β} {xs : List α} {fault : ε}
    (h : xs.mapM f = .error fault) : ∃ x ∈ xs, f x = .error fault := by
  obtain ⟨before, x, after, rfl, -, hx⟩ := mapM_eq_error_iff.1 h
  exact ⟨x, by simp, hx⟩

/-- The first member of a list that lacks a property is found in one place only. -/
theorem first_unique {α : Type} {P : α → Prop} {before before' after after' : List α} {x x' : α}
    (h : before ++ x :: after = before' ++ x' :: after') (hbefore : ∀ y ∈ before, P y)
    (hx : ¬ P x) (hbefore' : ∀ y ∈ before', P y) (hx' : ¬ P x') : before = before' ∧ x = x' := by
  induction before generalizing before' with
  | nil =>
      cases before' with
      | nil => exact ⟨rfl, (List.cons.inj h).1⟩
      | cons y rest =>
          obtain ⟨rfl, -⟩ := List.cons.inj h
          exact absurd (hbefore' x (by simp)) hx
  | cons y rest ih =>
      cases before' with
      | nil =>
          obtain ⟨rfl, -⟩ := List.cons.inj h
          exact absurd (hbefore y (by simp)) hx'
      | cons z rest' =>
          obtain ⟨rfl, hrest⟩ := List.cons.inj h
          rw [List.forall_mem_cons] at hbefore hbefore'
          obtain ⟨rfl, rfl⟩ := ih hrest hbefore.2 hbefore'.2
          exact ⟨rfl, rfl⟩

/-- What is made of a result under a condition is made of it under that condition. -/
theorem bind_of_ite {ε α β : Type} {p : Prop} [Decidable p] {a : α} {fault : ε}
    (f : α → Except ε β) :
    ((if p then .ok a else .error fault) >>= f) = if p then f a else .error fault := by
  split <;> rfl

/-- Members that succeed under a condition, and fail alike without it, succeed together under all
the conditions. -/
theorem mapM_eq_ite {ε α β : Type} {f : α → Except ε β} {p : α → Prop} [DecidablePred p]
    {fault : ε} {xs : List α} {ys : List β}
    (h : List.Forall₂ (fun x y => f x = if p x then .ok y else .error fault) xs ys) :
    xs.mapM f = if ∀ x ∈ xs, p x then .ok ys else .error fault := by
  induction h with
  | nil => simp [pure, Except.pure]
  | @cons x y xs ys hx _ hxs =>
      rw [List.mapM_cons, hx, hxs]
      by_cases hp : p x
      · by_cases hps : ∀ y ∈ xs, p y
        · rw [if_pos hp, if_pos hps, if_pos (List.forall_mem_cons.2 ⟨hp, hps⟩)]
          rfl
        · rw [if_pos hp, if_neg hps, if_neg fun hall => hps (List.forall_mem_cons.1 hall).2]
          rfl
      · rw [if_neg hp, if_neg fun hall => hp (List.forall_mem_cons.1 hall).1]
        rfl

/-- Some list corresponds to `xs` exactly if every member of `xs` has a partner. -/
theorem exists_forall₂_iff {α β : Type} {R : α → β → Prop} {xs : List α} :
    (∃ ys, List.Forall₂ R xs ys) ↔ ∀ x ∈ xs, ∃ y, R x y := by
  induction xs with
  | nil => simp
  | cons x xs ih =>
      simp only [List.forall₂_cons_left_iff, List.forall_mem_cons, ← ih]
      constructor
      · rintro ⟨_, y, ys, hy, hys, rfl⟩
        exact ⟨⟨y, hy⟩, ys, hys⟩
      · rintro ⟨⟨y, hy⟩, ys, hys⟩
        exact ⟨y :: ys, y, ys, hy, hys, rfl⟩

/-- A relation that follows on the members of a list relates it to the same lists. -/
theorem forall₂_imp_of_mem {α β : Type} {R S : α → β → Prop} {xs : List α} {ys : List β}
    (h : ∀ x ∈ xs, ∀ y, R x y → S x y) (hR : List.Forall₂ R xs ys) : List.Forall₂ S xs ys := by
  have hboth := (List.forall₂_and_left xs ys).2 ⟨h, hR⟩
  exact hboth.imp fun x y hxy => hxy.1 y hxy.2

/-- Relations that agree on the members of a list relate it to the same lists. -/
theorem forall₂_congr_of_mem {α β : Type} {R S : α → β → Prop} {xs : List α} {ys : List β}
    (h : ∀ x ∈ xs, ∀ y, R x y ↔ S x y) : List.Forall₂ R xs ys ↔ List.Forall₂ S xs ys := by
  constructor
  · exact forall₂_imp_of_mem fun x hx y => (h x hx y).1
  · exact forall₂_imp_of_mem fun x hx y => (h x hx y).2

/-- Every member of the second list has a partner in the first. -/
theorem exists_mem_of_forall₂ {α β : Type} {R : α → β → Prop} {xs : List α} {ys : List β}
    (h : List.Forall₂ R xs ys) : ∀ y ∈ ys, ∃ x ∈ xs, R x y := by
  induction h with
  | nil => simp
  | cons hxy _ ih =>
      intro z hz
      rcases List.mem_cons.1 hz with rfl | hz
      · exact ⟨_, by simp, hxy⟩
      · obtain ⟨x, hx, hxz⟩ := ih z hz
        exact ⟨x, by simp [hx], hxz⟩

/-- A member can be replaced by one that has all its partners. -/
theorem forall₂_of_replaced {α β : Type} {R : α → β → Prop} {before after : List α} {x x' : α}
    {ys : List β} (hx : ∀ y, R x y → R x' y) (h : List.Forall₂ R (before ++ x :: after) ys) :
    List.Forall₂ R (before ++ x' :: after) ys := by
  induction before generalizing ys with
  | nil =>
      obtain ⟨y, zs, hy, hzs, rfl⟩ := List.forall₂_cons_left_iff.1 h
      exact .cons (hx y hy) hzs
  | cons first rest ih =>
      obtain ⟨y, zs, hy, hzs, rfl⟩ := List.forall₂_cons_left_iff.1 h
      exact .cons hy (ih hzs)

/-- What is made of corresponding members corresponds together. -/
theorem forall₂_flatMap {α β γ δ : Type} {R : α → β → Prop} {S : γ → δ → Prop} {f : α → List γ}
    {g : β → List δ} {xs : List α} {ys : List β} (h : List.Forall₂ R xs ys)
    (hfg : ∀ x ∈ xs, ∀ y, R x y → List.Forall₂ S (f x) (g y)) :
    List.Forall₂ S (xs.flatMap f) (ys.flatMap g) :=
  List.rel_flatMap (forall₂_imp_of_mem hfg h) fun _ _ hparts => hparts

/-- Lists have equal images exactly if their members have, one by one. -/
theorem forall₂_eq_iff_map_eq {α β γ : Type} {f : α → γ} {g : β → γ} {xs : List α} {ys : List β} :
    List.Forall₂ (fun x y => f x = g y) xs ys ↔ xs.map f = ys.map g := by
  rw [← List.forall₂_eq_eq_eq, List.forall₂_map_left_iff, List.forall₂_map_right_iff]

/-- A property of all members carries over between lists whose members correspond. -/
theorem forall_mem_iff_of_forall₂ {α β : Type} {R : α → β → Prop} {P : α → Prop} {Q : β → Prop}
    {xs : List α} {ys : List β} (h : List.Forall₂ R xs ys)
    (hPQ : ∀ x ∈ xs, ∀ y, R x y → (P x ↔ Q y)) : (∀ x ∈ xs, P x) ↔ ∀ y ∈ ys, Q y := by
  induction h with
  | nil => simp
  | cons hxy _ ih =>
      rw [List.forall_mem_cons, List.forall_mem_cons, hPQ _ (by simp) _ hxy]
      rw [ih fun x hx => hPQ x (by simp [hx])]

/-- Entries correspond if their keys do and their values do. -/
theorem forall₂_entries_iff {α β : Type} {R : α → β → Prop} {entries : List (String × α)}
    {entries' : List (String × β)} :
    List.Forall₂ (fun keyed keyed' => keyed.1 = keyed'.1 ∧ R keyed.2 keyed'.2) entries entries' ↔
      entries.map Prod.fst = entries'.map Prod.fst ∧
        List.Forall₂ R (entries.map Prod.snd) (entries'.map Prod.snd) := by
  induction entries generalizing entries' with
  | nil => cases entries' <;> simp
  | cons keyed rest ih =>
      cases entries' with
      | nil => simp
      | cons keyed' rest' =>
          simp only [List.forall₂_cons, List.map_cons, List.cons.injEq, ih]
          tauto

/-- Entries that correspond still do among those whose keys are kept. -/
theorem forall₂_filter {α β : Type} {R : α → β → Prop} {entries : List (String × α)}
    {entries' : List (String × β)} (keep : String → Bool)
    (h : List.Forall₂ (fun keyed keyed' => keyed.1 = keyed'.1 ∧ R keyed.2 keyed'.2) entries
      entries') :
    List.Forall₂ (fun keyed keyed' => keyed.1 = keyed'.1 ∧ R keyed.2 keyed'.2)
      (entries.filter fun keyed => keep keyed.1) (entries'.filter fun keyed => keep keyed.1) :=
  List.rel_filter (fun _ _ hkeyed => Bool.eq_iff_iff.1 (congrArg keep hkeyed.1)) h

/-! ## Values -/

namespace Json

/-- Induction over values. -/
@[elab_as_elim]
theorem induction {P : Json → Prop} (null : P .null) (bool : ∀ b, P (.bool b))
    (number : ∀ n, P (.number n)) (string : ∀ s, P (.string s))
    (array : ∀ items, (∀ item ∈ items, P item) → P (.array items))
    (object : ∀ entries, (∀ entry ∈ entries, P entry.2) → P (.object entries)) (value : Json) :
    P value := by
  refine Json.rec
    (motive_1 := P)
    (motive_2 := fun items => ∀ item ∈ items, P item)
    (motive_3 := fun entries => ∀ entry ∈ entries, P entry.2)
    (motive_4 := fun entry => P entry.2)
    null bool number string array object ?_ ?_ ?_ ?_ ?_ value
  · simp
  · intro item rest hitem hrest
    exact List.forall_mem_cons.2 ⟨hitem, hrest⟩
  · simp
  · intro entry rest hentry hrest
    exact List.forall_mem_cons.2 ⟨hentry, hrest⟩
  · intro key value hvalue
    exact hvalue

/-- The nesting among items is bounded by a bound for every item. -/
theorem nestingItems_le_iff {items : List Json} {n : Nat} :
    nestingItems items ≤ n ↔ ∀ item ∈ items, item.nesting ≤ n := by
  induction items with
  | nil => simp [nestingItems]
  | cons item rest ih => rw [nestingItems, Nat.max_le, ih, List.forall_mem_cons]

/-- The nesting among entries is bounded by a bound for every value. -/
theorem nestingEntries_le_iff {entries : List (String × Json)} {n : Nat} :
    nestingEntries entries ≤ n ↔ ∀ entry ∈ entries, entry.2.nesting ≤ n := by
  induction entries with
  | nil => simp [nestingEntries]
  | cons entry rest ih => rw [nestingEntries, Nat.max_le, ih, List.forall_mem_cons]

end Json

/-! ## Trees -/

namespace Tree

variable {κ : Type}

/-- Induction over trees. -/
@[elab_as_elim]
theorem induction {P : Tree κ → Prop} (constant : ∀ value, P (.constant value))
    (permission : ∀ type value checker, P (.permission type value checker))
    (gate : ∀ g inputs, (∀ input ∈ inputs, P input) → P (.gate g inputs)) (tree : Tree κ) :
    P tree := by
  refine Tree.rec
    (motive_1 := P)
    (motive_2 := fun trees => ∀ tree ∈ trees, P tree)
    constant permission gate ?_ ?_ tree
  · simp
  · intro tree rest htree hrest
    exact List.forall_mem_cons.2 ⟨htree, hrest⟩

/-- The written forms of trees are those of each. -/
@[simp] theorem toJsonEach_eq_map (trees : List (Tree κ)) :
    toJsonEach trees = trees.map toJson := by
  induction trees with
  | nil => rfl
  | cons tree rest ih => rw [toJsonEach, ih, List.map_cons]

/-- Trees are well formed together if each is. -/
theorem wellFormedEach_iff {trees : List (Tree κ)} :
    wellFormedEach trees = true ↔ ∀ tree ∈ trees, tree.wellFormed = true := by
  induction trees with
  | nil => simp [wellFormedEach]
  | cons tree rest ih => simp [wellFormedEach, ih]

/-- A gate is well formed if it admits the number of its inputs and each of them is well formed. -/
theorem wellFormed_gate_iff {g : Gate} {inputs : List (Tree κ)} :
    (gate g inputs).wellFormed = true ↔
      g.admits inputs.length = true ∧ ∀ input ∈ inputs, input.wellFormed = true := by
  rw [wellFormed, Bool.and_eq_true, wellFormedEach_iff]

/-- Lists of trees agree if their members do, one by one. -/
theorem sameEach_iff {trees trees' : List (Tree κ)} :
    sameEach trees trees' = true ↔ List.Forall₂ (fun a b => a.same b = true) trees trees' := by
  induction trees generalizing trees' with
  | nil => cases trees' <;> simp [sameEach]
  | cons tree rest ih => cases trees' <;> simp [sameEach, ih]

end Tree

end Clearance
