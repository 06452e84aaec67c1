import Clearance.Proofs.TextChecks

/-!
# Taking the restriction out

The restriction of the bypass is taken out of the top level of an expression, wherever it stands
there and in whichever of its two spellings.  Everywhere else its keyword, in any case of letters,
is a fault: no expression that is accepted has it below the top level.
-/

namespace Clearance.Expression

variable {κ : Type}

/-! ## One restriction -/

/-- A restriction that is not accepted is the fault of the whole expression, whatever the rest. -/
theorem readGuarded_of_restriction_error {registry : Registry κ}
    {before after : List (String × Json)} {key : String} {value : Json} {fault : Fault}
    (hkey : isNoBypass key = true)
    (hothers : ∀ keyed ∈ before ++ after, isNoBypass keyed.1 = false)
    (hread : read registry value = .error fault) :
    readGuarded registry (.object (before ++ (key, value) :: after)) = .error fault := by
  rw [readGuarded_of_one registry value hkey hothers, hread]
  rfl

/-- The place and the spelling of a restriction do not matter. -/
theorem readGuarded_moved (registry : Registry κ)
    {before after before' after' : List (String × Json)} {key key' : String} (value : Json)
    (hkey : isNoBypass key = true) (hkey' : isNoBypass key' = true)
    (hothers : ∀ keyed ∈ before ++ after, isNoBypass keyed.1 = false)
    (hrest : before' ++ after' = before ++ after) :
    readGuarded registry (.object (before' ++ (key', value) :: after')) =
      readGuarded registry (.object (before ++ (key, value) :: after)) := by
  have hothers' : ∀ keyed ∈ before' ++ after', isNoBypass keyed.1 = false := by rwa [hrest]
  rw [readGuarded_of_one registry value hkey' hothers',
    readGuarded_of_one registry value hkey hothers, hrest]

/-! ## Both spellings -/

/-- Two restrictions under different keys cannot both be taken out. -/
theorem splitNoBypass_of_two {entries : List (String × Json)} {first second : String × Json}
    (hfirst : first ∈ entries) (hsecond : second ∈ entries)
    (hfirstKey : isNoBypass first.1 = true) (hsecondKey : isNoBypass second.1 = true)
    (hne : first.1 ≠ second.1) : splitNoBypass entries = .error .misplacedNoBypass := by
  have hfirst : first ∈ entries.filter fun keyed => isNoBypass keyed.1 :=
    List.mem_filter.2 ⟨hfirst, hfirstKey⟩
  have hsecond : second ∈ entries.filter fun keyed => isNoBypass keyed.1 :=
    List.mem_filter.2 ⟨hsecond, hsecondKey⟩
  rw [splitNoBypass]
  generalize entries.filter (fun keyed => isNoBypass keyed.1) = taken at hfirst hsecond
  rcases taken with - | ⟨only, - | ⟨other, rest⟩⟩
  · cases hfirst
  · rw [List.mem_singleton] at hfirst hsecond
    exact absurd (by rw [hfirst, hsecond]) hne
  · rfl

/-- An expression with both spellings is rejected. -/
theorem readGuarded_of_both_spellings (registry : Registry κ) {entries : List (String × Json)}
    {value older : Json} (hvalue : (Keyword.noBypass, value) ∈ entries)
    (holder : (Keyword.noBypassOlder, older) ∈ entries) :
    readGuarded registry (.object entries) = .error .misplacedNoBypass := by
  have hkey : isNoBypass Keyword.noBypass = true := by decide
  have holderKey : isNoBypass Keyword.noBypassOlder = true := by decide
  have hne : Keyword.noBypass ≠ Keyword.noBypassOlder := by decide
  have hsplit := splitNoBypass_of_two hvalue holder hkey holderKey hne
  rw [readGuarded, hsplit]
  rfl

/-! ## The keyword elsewhere -/

/-- Nothing stands below an empty collection. -/
theorem not_at_of_members_nil {root value : Json} {step : Option String} {outer : Path}
    (hempty : root.members = []) : ¬ At root (step :: outer) value := by
  intro hat
  rcases at_iff.1 hat with ⟨hnil, -⟩ | ⟨step', part, hpart, -⟩
  · cases hnil
  · rw [hempty] at hpart
    cases hpart

/-- No key of an expression that is accepted is that of the restriction, in any case. -/
theorem not_noBypass_of_read {registry : Registry κ} {raw value : Json} {tree : Tree κ}
    {key : String} {outer : Path} (hread : read registry raw = .ok tree)
    (hat : At raw (some key :: outer) value) : sameWord key Keyword.noBypass = false := by
  rcases exists_read_iff_obeys.1 ⟨tree, hread⟩ with (rfl | rfl) | ⟨-, hobeys, -⟩
  · exact absurd hat (not_at_of_members_nil rfl)
  · exact absurd hat (not_at_of_members_nil rfl)
  · have hstep := (hobeys _ value hat).2 (by simp)
    by_contra hkey
    rw [Bool.not_eq_false, ← ofText_eq_noBypass_iff] at hkey
    simp only [List.append_nil, StepRule, hkey] at hstep

/-- A key of an accepted guarded expression that is the keyword of the restriction in any case is
the restriction itself: at the top level, in one of its two spellings. -/
theorem restriction_of_readGuarded {registry : Registry κ} {raw value : Json}
    {tree : GuardedTree κ} {key : String} {outer : Path}
    (hread : readGuarded registry raw = .ok tree) (hat : At raw (some key :: outer) value)
    (hkey : sameWord key Keyword.noBypass = true) : outer = [] ∧ isNoBypass key = true := by
  obtain ⟨main, hmain, -, hmembers⟩ := members_of_readGuarded hread
  rcases at_iff.1 hat with ⟨hnil, -⟩ | ⟨step, part, hpart, inner, hinner, hpath⟩
  · cases hnil
  · rcases hmembers step part hpart with hkept | ⟨⟨taken, rfl, htaken⟩, noBypass, hnoBypass⟩
    · -- the place is one of the main part, where the keyword cannot stand
      have hplace : At main (some key :: outer) value :=
        at_iff.2 (Or.inr ⟨step, part, hkept, inner, hinner, hpath⟩)
      rw [not_noBypass_of_read hmain hplace] at hkey
      cases hkey
    · cases inner with
      | nil =>
          cases hpath
          exact ⟨rfl, htaken⟩
      | cons first rest =>
          -- the place lies inside the restriction, which is accepted by itself
          obtain ⟨rfl, -⟩ := List.cons_eq_cons.1 hpath
          rw [not_noBypass_of_read hnoBypass hinner] at hkey
          cases hkey

/-! ## The rule as a whole -/

/-- **The restriction is taken out of the top level and nowhere else.**  A single restriction in
either spelling is read by itself and first, and the rest as if it had never stood there, so that
neither its place nor its spelling matters.  Both spellings together are rejected, whatever else
there is; and so is every expression with the keyword of the restriction, in any case of letters, at
any place but these two keys of the top level. -/
theorem restriction_taken_out (registry : Registry κ) :
    (∀ (before after : List (String × Json)) (key : String) (value : Json),
      isNoBypass key = true → (∀ keyed ∈ before ++ after, isNoBypass keyed.1 = false) →
      (readGuarded registry (.object (before ++ (key, value) :: after)) = do
        let noBypass ← read registry value
        let main ← read registry (.object (before ++ after))
        return ⟨main, some noBypass⟩) ∧
      (∀ fault, read registry value = .error fault →
        readGuarded registry (.object (before ++ (key, value) :: after)) = .error fault) ∧
      ∀ (before' after' : List (String × Json)) (key' : String),
        before' ++ after' = before ++ after → isNoBypass key' = true →
        readGuarded registry (.object (before' ++ (key', value) :: after')) =
          readGuarded registry (.object (before ++ (key, value) :: after))) ∧
    (∀ (entries : List (String × Json)) (value older : Json),
      (Keyword.noBypass, value) ∈ entries → (Keyword.noBypassOlder, older) ∈ entries →
      readGuarded registry (.object entries) = .error .misplacedNoBypass) ∧
    ∀ (raw value : Json) (key : String) (outer : Path),
      At raw (some key :: outer) value → sameWord key Keyword.noBypass = true →
      (outer = [] → isNoBypass key = false) →
      ∃ fault, readGuarded registry raw = .error fault := by
  refine ⟨?_, ?_, ?_⟩
  · intro before after key value hkey hothers
    refine ⟨readGuarded_of_one registry value hkey hothers, ?_, ?_⟩
    · intro fault hread
      exact readGuarded_of_restriction_error hkey hothers hread
    · intro before' after' key' hrest hkey'
      exact readGuarded_moved registry value hkey hkey' hothers hrest
  · intro entries value older hvalue holder
    exact readGuarded_of_both_spellings registry hvalue holder
  · intro raw value key outer hat hkey helsewhere
    cases hread : readGuarded registry raw with
    | error fault => exact ⟨fault, rfl⟩
    | ok tree =>
        obtain ⟨houter, htaken⟩ := restriction_of_readGuarded hread hat hkey
        rw [helsewhere houter] at htaken
        cases htaken

/-- A restriction after a role is read as one before it in the older spelling, and its fault is
reported although the role is empty; both spellings are rejected, and so is a third one beside a
role, and the keyword below a gate. -/
theorem restriction_taken_out_roles :
    (readGuarded Registry.roles (.object [("no_bypass", .bool true), ("role", .string "a")]) =
        readGuarded Registry.roles (.object [("role", .string "a"), ("NO_BYPASS", .bool true)]) ∧
      readGuarded Registry.roles (.object [("role", .string ""), ("NO_BYPASS", .null)]) =
        .error (.notAnExpression .null)) ∧
    readGuarded Registry.roles (.object [("no_bypass", .bool true), ("NO_BYPASS", .bool true)]) =
      .error .misplacedNoBypass ∧
    (∃ fault, readGuarded Registry.roles
      (.object [("role", .string "a"), ("No_Bypass", .bool true)]) = .error fault) ∧
    ∃ fault, readGuarded Registry.roles
      (.object [("not", .object [("NO_BYPASS", .bool true)])]) = .error fault := by
  have hrule := restriction_taken_out Registry.roles
  have hkey : isNoBypass "NO_BYPASS" = true := by decide
  have holder : isNoBypass "no_bypass" = true := by decide
  have hrole : ∀ s : String, ∀ keyed ∈ [("role", Json.string s)] ++ [],
      isNoBypass keyed.1 = false := by
    intro s
    have hplain : isNoBypass "role" = false := by decide
    exact List.forall_mem_singleton.2 hplain
  refine ⟨⟨?_, ?_⟩, ?_, ?_, ?_⟩
  · exact (hrule.1 [("role", .string "a")] [] "NO_BYPASS" (.bool true) hkey (hrole "a")).2.2
      [] [("role", .string "a")] "no_bypass" rfl holder
  · exact (hrule.1 [("role", .string "")] [] "NO_BYPASS" .null hkey (hrole "")).2.1 _ rfl
  · exact hrule.2.1 _ (.bool true) (.bool true) (by simp [Keyword.noBypass])
      (by simp [Keyword.noBypassOlder])
  · exact hrule.2.2 _ (.bool true) "No_Bypass" [] (.member .root (by simp [Json.members]))
      (by decide) (fun _ => by decide)
  · have hinner : At (.object [("not", .object [("NO_BYPASS", .bool true)])]) [some "not"]
        (.object [("NO_BYPASS", .bool true)]) := .member .root (by simp [Json.members])
    exact hrule.2.2 _ (.bool true) "NO_BYPASS" [some "not"]
      (.member hinner (by simp [Json.members])) (by decide) (by simp)

end Clearance.Expression
