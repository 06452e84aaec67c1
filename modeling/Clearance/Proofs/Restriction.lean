import Clearance.Proofs.Decisions
import Clearance.Proofs.FixedPoint

/-!
# The restriction of the bypass

A guarded expression has two parts that are read by themselves: the restriction of the bypass, if
there is one, and the rest.  A restriction never grants anything: what is granted beside it is
granted without it, and where it holds access is decided as if the bypass were not allowed.
-/

namespace Clearance

variable {κ β : Type}

/-! ## The parts of an expression -/

namespace Expression

/-- The restriction of the bypass, if there is one, and the expression without it. -/
def parts : Json → Except Fault (Option Json × Json)
  | .object entries => (splitNoBypass entries).map fun split => (split.1, .object split.2)
  | value => .ok (none, value)

/-- The two parts are read by themselves, the restriction first. -/
theorem readGuarded_eq (registry : Registry κ) (raw : Json) :
    readGuarded registry raw = do
      let split ← parts raw
      let noBypass ← split.1.mapM (read registry)
      let main ← read registry split.2
      return ⟨main, noBypass⟩ := by
  cases raw with
  | object entries =>
      rw [readGuarded, parts]
      cases splitNoBypass entries with
      | error fault => rfl
      | ok split =>
          obtain ⟨restriction, others⟩ := split
          cases restriction with
          | none => rfl
          | some value =>
              show (read registry value >>= fun noBypass => _) =
                ((some <$> read registry value) >>= fun noBypass => _)
              cases read registry value <;> rfl
  | null | bool b | number n | string s | array items => rfl

/-- A guarded expression is accepted exactly if its parts are. -/
theorem readGuarded_eq_ok_iff {registry : Registry κ} {raw : Json} {tree : GuardedTree κ} :
    readGuarded registry raw = .ok tree ↔ ∃ restriction main, parts raw = .ok (restriction, main) ∧
      Option.Rel (fun value noBypass => read registry value = .ok noBypass) restriction
        tree.noBypass ∧
      read registry main = .ok tree.main := by
  have hrestriction : ∀ {restriction : Option Json} {noBypass : Option (Tree κ)},
      restriction.mapM (read registry) = .ok noBypass ↔
        Option.Rel (fun value noBypass => read registry value = .ok noBypass) restriction
          noBypass := by
    intro restriction noBypass
    cases restriction with
    | none => cases noBypass <;> simp [pure, Except.pure]
    | some value =>
        show some <$> read registry value = .ok noBypass ↔ _
        cases noBypass <;> cases hread : read registry value <;> simp [Functor.map, Except.map, hread]
  obtain ⟨main, noBypass⟩ := tree
  rw [readGuarded_eq, bind_eq_ok_iff]
  constructor
  · rintro ⟨⟨restriction, rest⟩, hparts, h⟩
    obtain ⟨noBypass', hnoBypass, h⟩ := bind_eq_ok_iff.1 h
    obtain ⟨main', hmain, h⟩ := bind_eq_ok_iff.1 h
    cases h
    exact ⟨restriction, rest, hparts, hrestriction.1 hnoBypass, hmain⟩
  · rintro ⟨restriction, rest, hparts, hnoBypass, hmain⟩
    refine ⟨(restriction, rest), hparts, bind_eq_ok_iff.2 ⟨noBypass, hrestriction.2 hnoBypass, ?_⟩⟩
    exact bind_eq_ok_iff.2 ⟨main, hmain, rfl⟩

/-- Whether an expression is accepted is decided by its parts. -/
theorem exists_readGuarded_iff_of_parts {registry : Registry κ} {raw main : Json}
    {restriction : Option Json} (hparts : parts raw = .ok (restriction, main)) :
    (∃ tree, readGuarded registry raw = .ok tree) ↔
      (∀ value ∈ restriction, ∃ noBypass, read registry value = .ok noBypass) ∧
        ∃ tree, read registry main = .ok tree := by
  rw [readGuarded_eq, hparts]
  cases restriction with
  | none =>
      cases hmain : read registry main <;> simp [bind, Except.bind, pure, Except.pure, hmain]
  | some value =>
      cases hvalue : read registry value <;> cases hmain : read registry main <;>
        simp [bind, Except.bind, pure, Except.pure, Functor.map, Except.map, hvalue, hmain]

/-- Entries that correspond are split together, and what they are split into corresponds. -/
theorem splitNoBypass_cases {R : Json → Json → Prop} {entries entries' : List (String × Json)}
    (h : List.Forall₂ (fun keyed keyed' => keyed.1 = keyed'.1 ∧ R keyed.2 keyed'.2) entries
      entries') :
    (∃ fault, splitNoBypass entries = .error fault ∧ splitNoBypass entries' = .error fault) ∨
      ∃ restriction others restriction' others',
        splitNoBypass entries = .ok (restriction, others) ∧
        splitNoBypass entries' = .ok (restriction', others') ∧
        Option.Rel R restriction restriction' ∧
        List.Forall₂ (fun keyed keyed' => keyed.1 = keyed'.1 ∧ R keyed.2 keyed'.2) others
          others' := by
  have hothers := forall₂_filter (fun key => !isNoBypass key) h
  have htaken := forall₂_filter isNoBypass h
  rw [splitNoBypass, splitNoBypass]
  generalize entries.filter (fun keyed => isNoBypass keyed.1) = taken at htaken ⊢
  generalize entries'.filter (fun keyed => isNoBypass keyed.1) = taken' at htaken ⊢
  cases htaken with
  | nil => exact Or.inr ⟨_, _, _, _, rfl, rfl, .none, hothers⟩
  | cons hkeyed hrest =>
      cases hrest with
      | nil => exact Or.inr ⟨_, _, _, _, rfl, rfl, .some hkeyed.2, hothers⟩
      | cons => exact Or.inl ⟨_, rfl, rfl⟩

/-- Entries in another order are split alike: a single restriction stands in one order only. -/
theorem splitNoBypass_perm {entries entries' : List (String × Json)} (h : entries.Perm entries') :
    (∀ fault, splitNoBypass entries = .error fault → splitNoBypass entries' = .error fault) ∧
      ∀ restriction others, splitNoBypass entries = .ok (restriction, others) →
        ∃ others', splitNoBypass entries' = .ok (restriction, others') ∧ others.Perm others' := by
  have hothers := h.filter fun keyed => !isNoBypass keyed.1
  have htaken := h.filter fun keyed => isNoBypass keyed.1
  rw [splitNoBypass, splitNoBypass]
  generalize entries.filter (fun keyed => isNoBypass keyed.1) = taken at htaken ⊢
  generalize entries'.filter (fun keyed => isNoBypass keyed.1) = taken' at htaken ⊢
  -- the order is forgotten here: none and a single restriction permute to themselves only
  rcases taken with - | ⟨first, - | ⟨second, rest⟩⟩
  · rw [List.nil_perm.1 htaken]
    refine ⟨fun fault hfault => ?_, fun restriction others hsplit => ?_⟩
    · cases hfault
    · cases hsplit
      exact ⟨_, rfl, hothers⟩
  · rw [← List.singleton_perm.1 htaken]
    refine ⟨fun fault hfault => ?_, fun restriction others hsplit => ?_⟩
    · cases hfault
    · cases hsplit
      exact ⟨_, rfl, hothers⟩
  · rcases taken' with - | ⟨first', - | ⟨second', rest'⟩⟩
    · simpa using htaken.length_eq
    · simpa using htaken.length_eq
    · refine ⟨fun fault hfault => hfault, fun restriction others hsplit => ?_⟩
      cases hsplit

/-- The one restriction among the entries is taken out, wherever it stands. -/
theorem splitNoBypass_of_one {before after : List (String × Json)} {key : String} (value : Json)
    (hkey : isNoBypass key = true)
    (hothers : ∀ keyed ∈ before ++ after, isNoBypass keyed.1 = false) :
    splitNoBypass (before ++ (key, value) :: after) = .ok (some value, before ++ after) := by
  have hkept : (before ++ (key, value) :: after).filter (fun keyed => !isNoBypass keyed.1) =
      before ++ after := by
    rw [List.filter_append, List.filter_cons_of_neg (by simp [hkey]), ← List.filter_append]
    exact List.filter_eq_self.2 fun keyed hkeyed => by rw [hothers keyed hkeyed, Bool.not_false]
  have htaken : (before ++ (key, value) :: after).filter (fun keyed => isNoBypass keyed.1) =
      [(key, value)] := by
    have hnone : (before ++ after).filter (fun keyed => isNoBypass keyed.1) = [] :=
      List.filter_eq_nil_iff.2 fun keyed hkeyed => by rw [hothers keyed hkeyed]; simp
    rw [List.filter_append, List.append_eq_nil_iff] at hnone
    rw [List.filter_append, List.filter_cons_of_pos (by exact hkey), hnone.1, hnone.2,
      List.nil_append]
  unfold splitNoBypass
  simp only [htaken, hkept]

/-- Where there is one restriction it is the first part, and the other entries are the second. -/
theorem parts_of_one {before after : List (String × Json)} {key : String} (value : Json)
    (hkey : isNoBypass key = true)
    (hothers : ∀ keyed ∈ before ++ after, isNoBypass keyed.1 = false) :
    parts (.object (before ++ (key, value) :: after)) =
      .ok (some value, .object (before ++ after)) := by
  rw [parts, splitNoBypass_of_one value hkey hothers]
  rfl

/-- An expression that has parts is its own main part, or one of its entries, and no other, has a key
of the restriction. -/
theorem parts_eq_ok_cases {raw main : Json} {restriction : Option Json}
    (h : parts raw = .ok (restriction, main)) :
    restriction = none ∧ main = raw ∨
      ∃ before key value after, restriction = some value ∧
        raw = .object (before ++ (key, value) :: after) ∧ main = .object (before ++ after) ∧
        isNoBypass key = true ∧ ∀ keyed ∈ before ++ after, isNoBypass keyed.1 = false := by
  cases raw with
  | null | bool | number | string | array =>
      cases h
      exact Or.inl ⟨rfl, rfl⟩
  | object entries =>
      rcases htaken : entries.filter (fun keyed => isNoBypass keyed.1) with
        - | ⟨⟨key, value⟩, - | ⟨second, rest⟩⟩
      · rw [List.filter_eq_nil_iff] at htaken
        have hnone : ∀ keyed ∈ entries, isNoBypass keyed.1 = false :=
          fun keyed hkeyed => Bool.eq_false_iff.2 (htaken keyed hkeyed)
        rw [parts, splitNoBypass_of_none hnone] at h
        cases h
        exact Or.inl ⟨rfl, rfl⟩
      · obtain ⟨before, after, rfl, hbefore, hkey, hafter⟩ := List.filter_eq_cons_iff.1 htaken
        rw [List.filter_eq_nil_iff] at hafter
        have hothers : ∀ keyed ∈ before ++ after, isNoBypass keyed.1 = false := by
          intro keyed hkeyed
          rcases List.mem_append.1 hkeyed with hmem | hmem
          · exact Bool.eq_false_iff.2 (hbefore keyed hmem)
          · exact Bool.eq_false_iff.2 (hafter keyed hmem)
        rw [parts_of_one value hkey hothers] at h
        cases h
        exact Or.inr ⟨before, key, value, after, rfl, rfl, rfl, hkey, hothers⟩
      · rw [parts, splitNoBypass, htaken] at h
        cases h

/-- Beside a restriction an expression is read as without it. -/
theorem readGuarded_of_one (registry : Registry κ) {before after : List (String × Json)}
    {key : String} (value : Json) (hkey : isNoBypass key = true)
    (hothers : ∀ keyed ∈ before ++ after, isNoBypass keyed.1 = false) :
    readGuarded registry (.object (before ++ (key, value) :: after)) = do
      let noBypass ← read registry value
      let main ← read registry (.object (before ++ after))
      return ⟨main, some noBypass⟩ := by
  rw [readGuarded, splitNoBypass_of_one value hkey hothers]
  rfl

end Expression

/-! ## Restrictions only restrict -/

namespace Access

variable (host : Host κ β Id) (bypass : Option β) (context : Json)

/-- What the main tree grants is granted whether or not there is a bypass. -/
theorem grants_of_eval {tree : GuardedTree κ} (allowBypass : Bool)
    (hmain : tree.main.eval host.ask context = true) :
    grants host bypass tree context allowBypass = true := by
  rw [grants, hmain, Bool.or_true]

/-- Without the bypass the main tree decides. -/
theorem grants_of_not_bypass {tree : GuardedTree κ} {allowBypass : Bool}
    (hbypass : grantsByBypass host bypass tree context allowBypass = false) :
    grants host bypass tree context allowBypass = tree.main.eval host.ask context := by
  rw [grants, hbypass, Bool.false_or]

/-- A bypass that is not allowed grants nothing. -/
theorem grantsByBypass_false (tree : GuardedTree κ) :
    grantsByBypass host bypass tree context false = false := rfl

/-- Without a bypass checker the bypass grants nothing. -/
theorem grantsByBypass_none (tree : GuardedTree κ) (allowBypass : Bool) :
    grantsByBypass host none tree context allowBypass = false := by
  simp [grantsByBypass]

/-- Where the restriction holds the bypass grants nothing. -/
theorem grantsByBypass_of_restriction {main noBypass : Tree κ} (allowBypass : Bool)
    (hholds : noBypass.eval host.ask context = true) :
    grantsByBypass host bypass ⟨main, some noBypass⟩ context allowBypass = false := by
  simp [grantsByBypass, hholds]

/-- What is granted beside a restriction is granted without it. -/
theorem grants_of_restricted {main noBypass : Tree κ} {allowBypass : Bool}
    (hgrants : grants host bypass ⟨main, some noBypass⟩ context allowBypass = true) :
    grants host bypass ⟨main, none⟩ context allowBypass = true := by
  simp only [grants, grantsByBypass, Bool.or_eq_true, Bool.and_eq_true] at hgrants ⊢
  rcases hgrants with ⟨⟨hallow, -⟩, hbypass⟩ | hmain
  · exact Or.inl ⟨⟨hallow, by simp⟩, hbypass⟩
  · exact Or.inr hmain

end Access

namespace Engine

section Restrictions

variable {engine : Engine κ β} {before after : List (String × Json)} {key : String}

/-- What is granted beside a restriction is granted without it. -/
theorem checkWith_of_restricted {value context : Json} {allowBypass : Bool} (host : Host κ β Id)
    (hkey : Expression.isNoBypass key = true)
    (hothers : ∀ keyed ∈ before ++ after, Expression.isNoBypass keyed.1 = false)
    (hgrants : engine.checkWith host (.object (before ++ (key, value) :: after)) context
      allowBypass = .ok true) :
    engine.checkWith host (.object (before ++ after)) context allowBypass = .ok true := by
  obtain ⟨tree, hbuild, hcontext, hgrants⟩ :=
    (checkWith_eq_ok_true_iff engine host _ context allowBypass).1 hgrants
  rw [buildTree, Expression.readGuarded_of_one engine.registry value hkey hothers] at hbuild
  obtain ⟨noBypass, -, hbuild⟩ := bind_eq_ok_iff.1 hbuild
  obtain ⟨main, hmain, hbuild⟩ := bind_eq_ok_iff.1 hbuild
  cases hbuild
  refine (checkWith_eq_ok_true_iff engine host _ context allowBypass).2
    ⟨⟨main, none⟩, ?_, hcontext, Access.grants_of_restricted host engine.bypass context hgrants⟩
  rw [buildTree, Expression.readGuarded_of_none hothers, hmain]
  rfl

/-- Where a restriction holds, access is decided as without it and without the bypass. -/
theorem checkWith_of_restriction {value context : Json} {noBypass : Tree κ} (host : Host κ β Id)
    (allowBypass : Bool) (hkey : Expression.isNoBypass key = true)
    (hothers : ∀ keyed ∈ before ++ after, Expression.isNoBypass keyed.1 = false)
    (hread : Expression.read engine.registry value = .ok noBypass)
    (hholds : noBypass.eval host.ask context = true) :
    engine.checkWith host (.object (before ++ (key, value) :: after)) context allowBypass =
      engine.checkWith host (.object (before ++ after)) context false := by
  refine (checkWith_eq engine host _ context allowBypass).trans
    (Eq.trans ?_ (checkWith_eq engine host _ context false).symm)
  rw [buildTree, buildTree, Expression.readGuarded_of_one engine.registry value hkey hothers,
    Expression.readGuarded_of_none hothers, hread]
  cases Expression.read engine.registry (.object (before ++ after)) with
  | error fault => rfl
  | ok main =>
      show Id.run (Access.check host engine.bypass ⟨main, some noBypass⟩ context allowBypass) =
        Id.run (Access.check host engine.bypass ⟨main, none⟩ context false)
      rw [Access.check_eq, Access.check_eq,
        Access.grants_of_not_bypass host engine.bypass context
          (Access.grantsByBypass_of_restriction host engine.bypass context allowBypass hholds),
        Access.grants_of_not_bypass host engine.bypass context
          (Access.grantsByBypass_false host engine.bypass context ⟨main, none⟩)]

/-- What the main tree grants by itself is granted with any bypass. -/
theorem checkWith_of_not_bypass {bypass : Option β} {raw context : Json} {allowBypass : Bool}
    (host : Host κ β Id)
    (hbypass : ∀ tree, Access.grantsByBypass host bypass tree context allowBypass = false)
    (hgrants : (engine.setBypass bypass).checkWith host raw context allowBypass = .ok true)
    (checker : β) :
    (engine.setBypass (some checker)).checkWith host raw context true = .ok true := by
  obtain ⟨tree, hbuild, hcontext, hgrants⟩ :=
    (checkWith_eq_ok_true_iff (engine.setBypass bypass) host raw context allowBypass).1 hgrants
  have hgrants : Access.grants host bypass tree context allowBypass = true := hgrants
  rw [Access.grants_of_not_bypass host bypass context (hbypass tree)] at hgrants
  exact (checkWith_eq_ok_true_iff (engine.setBypass (some checker)) host raw context true).2
    ⟨tree, hbuild, hcontext, Access.grants_of_eval host (some checker) context true hgrants⟩

end Restrictions

/-- **A restriction of the bypass only restricts.**  What is granted beside a restriction is granted
without it; where the restriction holds, the answer is that without it and without the bypass.  What
is granted without the bypass, or without a bypass checker, is granted with any of them. -/
theorem restriction_only_restricts (engine : Engine κ β) (host : Host κ β Id) (context : Json) :
    (∀ (before after : List (String × Json)) (key : String) (value : Json),
      Expression.isNoBypass key = true →
      (∀ keyed ∈ before ++ after, Expression.isNoBypass keyed.1 = false) →
      ∀ allowBypass,
        (engine.checkWith host (.object (before ++ (key, value) :: after)) context allowBypass =
            .ok true →
          engine.checkWith host (.object (before ++ after)) context allowBypass = .ok true) ∧
        ∀ noBypass, Expression.read engine.registry value = .ok noBypass →
          noBypass.eval host.ask context = true →
          engine.checkWith host (.object (before ++ (key, value) :: after)) context allowBypass =
            engine.checkWith host (.object (before ++ after)) context false) ∧
    ∀ raw, engine.checkWith host raw context false = .ok true ∨
        (∃ allowBypass,
          (engine.setBypass none).checkWith host raw context allowBypass = .ok true) →
      ∀ checker, (engine.setBypass (some checker)).checkWith host raw context true = .ok true := by
  refine ⟨?_, ?_⟩
  · intro before after key value hkey hothers allowBypass
    exact ⟨checkWith_of_restricted host hkey hothers, fun noBypass hread hholds =>
      checkWith_of_restriction host allowBypass hkey hothers hread hholds⟩
  · rintro raw (hgrants | ⟨allowBypass, hgrants⟩) checker
    · have hown : (engine.setBypass engine.bypass).checkWith host raw context false = .ok true :=
        hgrants
      exact checkWith_of_not_bypass host (Access.grantsByBypass_false host engine.bypass context)
        hown checker
    · exact checkWith_of_not_bypass host
        (fun tree => Access.grantsByBypass_none host context tree allowBypass) hgrants checker

/-- An application where everybody is an auditor and nothing else, and every bypass is granted. -/
def auditing : Host Unit Unit Id where
  ask _ value _ := value == "auditor"
  askBypass _ _ := true

/-- A bypass grants access to administrators that are not guests, and no access that auditors are
kept from; auditors need no bypass. -/
theorem restriction_only_restricts_auditing :
    let engine : Engine Unit Unit := { registry := .roles, bypass := some () }
    engine.checkWith auditing (.object [("role", .string "admin")]) .null true = .ok true ∧
    engine.checkWith auditing (.object [("role", .string "admin"),
        ("no_bypass", .object [("role", .string "auditor")])]) .null true =
      engine.checkWith auditing (.object [("role", .string "admin")]) .null false ∧
    (engine.setBypass (some ())).checkWith auditing (.object [("role", .string "auditor")]) .null
      true = .ok true := by
  intro engine
  have hothers : ∀ keyed ∈ [("role", Json.string "admin")] ++ [],
      Expression.isNoBypass keyed.1 = false := by decide
  have hguest := (restriction_only_restricts engine auditing .null).1 [("role", .string "admin")] []
    "no_bypass" (.object [("role", .string "guest")]) (by decide) hothers true
  have hauditor := (restriction_only_restricts engine auditing .null).1
    [("role", .string "admin")] [] "no_bypass" (.object [("role", .string "auditor")]) (by decide)
    hothers true
  exact ⟨hguest.1 rfl, hauditor.2 (.permission "role" "auditor" ()) rfl rfl,
    (restriction_only_restricts engine auditing .null).2 _ (Or.inl rfl) ()⟩

end Engine

end Clearance
