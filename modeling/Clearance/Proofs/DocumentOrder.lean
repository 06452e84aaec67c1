import Clearance.Proofs.Walks

/-!
# Faults in document order

A rejected expression can hold many faults.  The one that is reported is the first that a walk
through the expression meets: `FirstFault` says what it is and how much of the walk it takes to tell,
without a word about what comes after.
-/

namespace Clearance

variable {κ : Type}

namespace Expression

variable {registry : Registry κ} {scope : Scope κ} {g : Gate} {room : Nat} {value : Json}
  {fault : Fault}

/-! ## Members -/

/-- How a member is read: an item as part of its array, an entry as its key says. -/
def readStep (registry : Registry κ) (scope : Scope κ) :
    Option String → Json → Except Fault (Reading κ)
  | none, _ => .ok ⟨.or, scope⟩
  | some key, value => readKey registry scope key value

/-- The sibling that a member of a collection yields. -/
def member (registry : Registry κ) (scope : Scope κ) (room : Nat)
    (member : Option String × Json) : Except Fault (Tree κ) := do
  let reading ← readStep registry scope member.1 member.2
  Tree.join reading.gate (← siblings registry reading.scope room member.2)

/-- Whether a member is acceptable on its own. -/
def Acceptable (registry : Registry κ) (scope : Scope κ) (room : Nat)
    (part : Option String × Json) : Prop :=
  ∃ tree, member registry scope room part = .ok tree

/-- A collection is read member by member. -/
theorem siblings_collection (hvalue : value.isCollection = true) :
    siblings registry scope (room + 1) value =
      value.members.mapM (member registry scope room) := by
  cases value with
  | null | bool | number | string => cases hvalue
  | array items =>
      rw [siblings_array_succ, Json.members, List.mapM_map]
      rfl
  | object entries =>
      rw [siblings_object_succ, Json.members, List.mapM_map]
      rfl

/-! ## Faults of single values and of keys -/

/-- What is wrong with a value that is no collection, by itself. -/
inductive ScalarFault (scope : Scope κ) : Json → Fault → Prop
  | null : ScalarFault scope .null (.notAPermission .null)
  | number (n : Number) : ScalarFault scope (.number n) (.notAPermission .number)
  | bool (b : Bool) {name : String} {checker : κ} (hscope : scope = some (name, checker)) :
      ScalarFault scope (.bool b) (.constantUnderType name)
  | empty : ScalarFault scope (.string "") .emptyPermission
  | word {s name : String} {b : Bool} {checker : κ} (hword : constantOfWord? s = some b)
      (hscope : scope = some (name, checker)) :
      ScalarFault scope (.string s) (.constantUnderType name)
  | untyped {s : String} (htext : IsPermissionText s) (hscope : scope = none) :
      ScalarFault scope (.string s) (.untyped s)

/-- A constant fails under a type, and only there. -/
theorem constant_eq_error_iff {b : Bool} :
    constant scope b = .error fault ↔
      ∃ name checker, scope = some (name, checker) ∧ fault = .constantUnderType name := by
  unfold constant
  split <;> simp [eq_comm]

/-- A text fails for what is wrong with it by itself. -/
theorem text_eq_error_iff {s : String} :
    text scope s = .error fault ↔ ScalarFault scope (.string s) fault := by
  constructor
  · intro h
    unfold text at h
    split at h
    · rename_i hempty
      cases h
      rw [List.isEmpty_iff, String.toList_eq_nil_iff] at hempty
      rw [hempty]
      exact .empty
    · rename_i hempty
      split at h
      · rename_i b hword
        obtain ⟨name, checker, hscope, rfl⟩ := constant_eq_error_iff.1 h
        exact .word hword hscope
      · rename_i hword
        cases scope with
        | some type => cases h
        | none =>
            cases h
            exact .untyped (isPermissionText_iff.2 ⟨by simpa using hempty, hword⟩) rfl
  · rintro (- | - | - | - | ⟨hword, rfl⟩ | ⟨htext, rfl⟩)
    · rfl
    · simp [text, hword, isEmpty_eq_false_of_constantOfWord? hword, constant]
    · obtain ⟨hempty, hword⟩ := isPermissionText_iff.1 htext
      simp [text, hword, hempty]

/-- A value that is no collection fails for what is wrong with it by itself. -/
theorem siblings_eq_error_iff (hvalue : value.isCollection = false) :
    siblings registry scope room value = .error fault ↔ ScalarFault scope value fault := by
  have honly : ∀ x : Except Fault (Tree κ),
      (x >>= fun tree => pure [tree]) = .error fault ↔ x = .error fault := by
    intro x
    cases x <;> simp [bind, Except.bind, pure, Except.pure]
  cases value with
  | array | object => cases hvalue
  | null =>
      constructor
      · intro h
        cases h
        exact .null
      · rintro ⟨⟩
        rfl
  | number n =>
      constructor
      · intro h
        cases h
        exact .number n
      · rintro ⟨⟩
        rfl
  | bool b =>
      rw [siblings, honly, constant_eq_error_iff]
      constructor
      · rintro ⟨name, checker, hscope, rfl⟩
        exact .bool b hscope
      · rintro (- | - | ⟨_, hscope⟩)
        exact ⟨_, _, hscope, rfl⟩
  | string s => rw [siblings, honly, text_eq_error_iff]

/-- Only a value that is no collection is at fault by itself. -/
theorem ScalarFault.isCollection (h : ScalarFault scope value fault) :
    value.isCollection = false := by
  cases h <;> rfl

/-- What is wrong with a key above a value, and what the walk meets from the key until that is
told: the value itself only where it is no collection but should be one. -/
inductive KeyFault (registry : Registry κ) (scope : Scope κ) (key : String) (value : Json) :
    List Json.Visit → Fault → Prop
  | noBypass (hkey : Key.ofText key = .noBypass) :
      KeyFault registry scope key value [.key key] .misplacedNoBypass
  | scalar {g : Gate} (hkey : Key.ofText key = .gate g) (hgate : g.takesScalar = false)
      (hvalue : value.isCollection = false) :
      KeyFault registry scope key value [.key key, .scalar value]
        (.scalarUnderGate g value.kind)
  | constant {b : Bool} (hkey : Key.ofText key = .constant b) :
      KeyFault registry scope key value [.key key] (.constantAsKey key)
  | nested {outer : String} {checker : κ} (hkey : Key.ofText key = .type key)
      (hscope : scope = some (outer, checker)) :
      KeyFault registry scope key value [.key key] (.nestedType outer key)
  | unknown (hkey : Key.ofText key = .type key) (hscope : scope = none)
      (hget : registry.get? key = none) :
      KeyFault registry scope key value [.key key] (.unknownType key)

/-- A key fails for what is wrong with it. -/
theorem readKey_eq_error_iff {key : String} :
    readKey registry scope key value = .error fault ↔
      ∃ seen, KeyFault registry scope key value seen fault := by
  constructor
  · intro h
    unfold readKey at h
    split at h
    · cases h
    · rename_i hkey
      cases h
      exact ⟨_, .noBypass hkey⟩
    · rename_i g hkey
      split at h
      · cases h
      · rename_i hneither
        cases h
        rw [Bool.or_eq_true, not_or, Bool.not_eq_true, Bool.not_eq_true] at hneither
        exact ⟨_, .scalar hkey hneither.1 hneither.2⟩
    · rename_i b hkey
      cases h
      exact ⟨_, .constant hkey⟩
    · rename_i name hkey
      have hname := Key.eq_of_ofText_eq_type hkey
      subst hname
      split at h
      · cases h
        exact ⟨_, .nested hkey rfl⟩
      · rcases bind_eq_error_iff.1 h with hget | ⟨checker, -, hpure⟩
        · obtain ⟨hnone, rfl⟩ := get_eq_error_iff.1 hget
          exact ⟨_, .unknown hkey rfl hnone⟩
        · cases hpure
  · rintro ⟨seen, hkey | ⟨hkey, hgate, hvalue⟩ | hkey | ⟨hkey, rfl⟩ | ⟨hkey, rfl, hget⟩⟩
    · simp [readKey, hkey]
    · simp [readKey, hkey, hgate, hvalue]
    · simp [readKey, hkey]
    · simp [readKey, hkey]
    · simp only [readKey, hkey, get_eq_error_iff.2 ⟨hget, rfl⟩]
      rfl

/-! ## The first fault -/

/-- The first fault that a walk through a value meets, and what the walk has met when it is told.
The value is read in a scope, its inputs are joined by a gate, and `room` further collections may be
nested.  A collection that is too deep is at fault as it is entered; of the members of a collection
only the first that is not acceptable on its own counts, and its key before what stands under it;
the number of inputs counts when all of them have been read. -/
inductive FirstFault (registry : Registry κ) :
    Scope κ → Gate → Nat → Json → List Json.Visit → Fault → Prop
  | scalar {scope : Scope κ} {g : Gate} {room : Nat} {value : Json} {fault : Fault}
      (hfault : ScalarFault scope value fault) :
      FirstFault registry scope g room value [.scalar value] fault
  | deep {scope : Scope κ} {g : Gate} {value : Json} (hvalue : value.isCollection = true) :
      FirstFault registry scope g 0 value [.enter value.kind] .tooDeep
  | key {scope : Scope κ} {g : Gate} {room : Nat} {value part : Json} {key : String}
      {before after : List (Option String × Json)} {seen : List Json.Visit} {fault : Fault}
      (hmembers : value.members = before ++ (some key, part) :: after)
      (hbefore : ∀ earlier ∈ before, Acceptable registry scope room earlier)
      (hkey : KeyFault registry scope key part seen fault) :
      FirstFault registry scope g (room + 1) value
        (.enter value.kind :: (before.flatMap Json.walkMember ++ seen)) fault
  | member {scope : Scope κ} {g : Gate} {room : Nat} {value part : Json} {step : Option String}
      {before after : List (Option String × Json)} {reading : Reading κ} {seen : List Json.Visit}
      {fault : Fault} (hmembers : value.members = before ++ (step, part) :: after)
      (hbefore : ∀ earlier ∈ before, Acceptable registry scope room earlier)
      (hstep : readStep registry scope step part = .ok reading)
      (hpart : FirstFault registry reading.scope reading.gate room part seen fault) :
      FirstFault registry scope g (room + 1) value
        (.enter value.kind :: (before.flatMap Json.walkMember ++ (Json.walkStep step ++ seen)))
        fault
  | count {scope : Scope κ} {g : Gate} {room : Nat} {value : Json} {inputs : List (Tree κ)}
      {fault : Fault} (hinputs : siblings registry scope room value = .ok inputs)
      (hcount : g.checkCount value.width = .error fault) :
      FirstFault registry scope g room value value.walk fault

/-! ## First faults and reading -/

/-- Joining the siblings of a value fails exactly for the width of the value. -/
theorem join_eq_error_iff_width {inputs : List (Tree κ)}
    (hinputs : siblings registry scope room value = .ok inputs) :
    Tree.join g inputs = .error fault ↔ g.checkCount value.width = .error fault := by
  rw [Tree.join_eq_error_iff, length_of_siblings (siblings_eq_ok_iff.1 hinputs).2]

section Members

variable {key : String} {step : Option String} {part : Json} {first : Option String × Json}
  {before after : List (Option String × Json)} {reading : Reading κ} {seen : List Json.Visit}

/-- A collection fails as its first member fails that is not acceptable on its own. -/
theorem siblings_eq_error_of_members (hmembers : value.members = before ++ first :: after)
    (hbefore : ∀ earlier ∈ before, Acceptable registry scope room earlier)
    (hfirst : member registry scope room first = .error fault) :
    siblings registry scope (room + 1) value = .error fault := by
  rw [siblings_collection (Json.isCollection_of_members_eq hmembers), mapM_eq_error_iff]
  exact ⟨before, first, after, hmembers, hbefore, hfirst⟩

/-- A key at fault is not read. -/
theorem KeyFault.readStep_eq_error (h : KeyFault registry scope key part seen fault) :
    readStep registry scope (some key) part = .error fault :=
  readKey_eq_error_iff.2 ⟨seen, h⟩

/-- A member whose key is at fault fails for it. -/
theorem KeyFault.member_eq_error (h : KeyFault registry scope key part seen fault) :
    member registry scope room (some key, part) = .error fault :=
  bind_eq_error_iff.2 (Or.inl h.readStep_eq_error)

/-- A member fails for what is wrong with what stands there. -/
theorem member_eq_error (hstep : readStep registry scope step part = .ok reading)
    (h : (siblings registry reading.scope room part >>= Tree.join reading.gate) = .error fault) :
    member registry scope room (step, part) = .error fault :=
  bind_eq_error_iff.2 (Or.inr ⟨reading, hstep, h⟩)

/-- A member that fails is not acceptable. -/
theorem not_acceptable (h : member registry scope room first = .error fault) :
    ¬ Acceptable registry scope room first := by
  rintro ⟨tree, htree⟩
  rw [h] at htree
  cases htree

end Members

/-- The first fault is the one that reading fails with. -/
theorem FirstFault.eq_error {seen : List Json.Visit}
    (h : FirstFault registry scope g room value seen fault) :
    (siblings registry scope room value >>= Tree.join g) = .error fault := by
  induction h with
  | scalar hfault =>
      exact bind_eq_error_iff.2 (Or.inl ((siblings_eq_error_iff hfault.isCollection).2 hfault))
  | deep hvalue =>
      rw [siblings_zero registry _ hvalue]
      rfl
  | key hmembers hbefore hkey =>
      have hread := siblings_eq_error_of_members hmembers hbefore hkey.member_eq_error
      exact bind_eq_error_iff.2 (Or.inl hread)
  | member hmembers hbefore hstep _ ih =>
      have hread := siblings_eq_error_of_members hmembers hbefore (member_eq_error hstep ih)
      exact bind_eq_error_iff.2 (Or.inl hread)
  | count hinputs hcount =>
      have hjoin := (join_eq_error_iff_width hinputs).2 hcount
      exact bind_eq_error_iff.2 (Or.inr ⟨_, hinputs, hjoin⟩)

/-- Where reading fails there is a first fault. -/
theorem exists_firstFault
    (h : (siblings registry scope room value >>= Tree.join g) = .error fault) :
    ∃ seen, FirstFault registry scope g room value seen fault := by
  induction value using Json.induction_members generalizing scope g room with
  | scalar value hvalue =>
      rcases bind_eq_error_iff.1 h with hread | ⟨inputs, hinputs, hjoin⟩
      · exact ⟨_, .scalar ((siblings_eq_error_iff hvalue).1 hread)⟩
      · exact ⟨_, .count hinputs ((join_eq_error_iff_width hinputs).1 hjoin)⟩
  | collection value hvalue ih =>
      rcases bind_eq_error_iff.1 h with hread | ⟨inputs, hinputs, hjoin⟩
      · cases room with
        | zero =>
            rw [siblings_zero registry scope hvalue] at hread
            cases hread
            exact ⟨_, .deep hvalue⟩
        | succ room =>
            rw [siblings_collection hvalue] at hread
            obtain ⟨before, ⟨step, part⟩, after, hmembers, hbefore, hfault⟩ :=
              mapM_eq_error_iff.1 hread
            rcases bind_eq_error_iff.1 hfault with hkey | ⟨reading, hstep, hpart⟩
            · cases step with
              | none => cases hkey
              | some key =>
                  obtain ⟨seen, hkey⟩ := readKey_eq_error_iff.1 hkey
                  exact ⟨_, .key hmembers hbefore hkey⟩
            · obtain ⟨seen, hseen⟩ := ih (step, part) (by simp [hmembers]) hpart
              exact ⟨_, .member hmembers hbefore hstep hseen⟩
      · exact ⟨_, .count hinputs ((join_eq_error_iff_width hinputs).1 hjoin)⟩

/-! ## What the walk has met -/

section Seen

variable {key : String} {part part' : Json} {step : Option String} {reading : Reading κ}
  {other : Json} {seen rest : List Json.Visit}

/-- What the walk has met when a key is at fault is part of the walk through the entry. -/
theorem KeyFault.isPrefix_walk (h : KeyFault registry scope key part seen fault) :
    seen <+: Json.walkMember (some key, part) := by
  cases h with
  | noBypass | constant | nested | unknown => exact List.prefix_append _ _
  | scalar _ _ hvalue =>
      have hwalk : Json.walkMember (some key, part) = [.key key, .scalar part] := by
        rw [Json.walkMember, Json.walk_scalar hvalue]
        rfl
      exact ⟨[], hwalk.symm⟩

/-- What the walk has met when the first fault is told is part of the walk. -/
theorem FirstFault.isPrefix_walk (h : FirstFault registry scope g room value seen fault) :
    seen <+: value.walk := by
  induction h with
  | scalar hfault =>
      have hwalk := Json.walk_scalar hfault.isCollection
      exact ⟨[], hwalk.symm⟩
  | deep hvalue =>
      rw [Json.walk_collection hvalue]
      exact List.prefix_append [_] _
  | key hmembers _ hkey => exact Json.isPrefix_walk_of_members hmembers hkey.isPrefix_walk
  | member hmembers _ _ _ ih =>
      exact Json.isPrefix_walk_of_members hmembers ((List.prefix_append_right_inj _).2 ih)
  | count => exact List.prefix_rfl

/-- What the walk has met when a key is at fault does not begin by leaving a collection. -/
theorem KeyFault.not_isPrefix_leave (h : KeyFault registry scope key part seen fault)
    (later : List Json.Visit) : ¬ seen <+: .leave :: later := by
  cases h <;> exact fun hstart => Json.Visit.noConfusion (List.cons_prefix_cons.1 hstart).1

/-- What the walk has met when the first fault is told begins with the first visit of the value. -/
theorem FirstFault.exists_seen_eq (h : FirstFault registry scope g room value seen fault) :
    ∃ tail, seen = value.firstVisit :: tail := by
  cases h with
  | scalar hfault => exact ⟨[], by rw [Json.firstVisit_scalar hfault.isCollection]⟩
  | deep hvalue => exact ⟨[], by rw [Json.firstVisit_collection hvalue]⟩
  | key hmembers | member hmembers =>
      have hvalue := Json.isCollection_of_members_eq hmembers
      exact ⟨_, by rw [Json.firstVisit_collection hvalue]⟩
  | count => exact value.exists_walk_eq

/-! ## What comes after the fault -/

/-- The fault of a key is told by what the walk has met. -/
theorem KeyFault.of_isPrefix (h : KeyFault registry scope key part seen fault)
    (hstart : seen <+: Json.walkStep step ++ (part'.walk ++ rest)) :
    step = some key ∧ KeyFault registry scope key part' seen fault := by
  cases h with
  | noBypass hkey => exact ⟨(Json.step_eq_of_key_isPrefix hstart).1, .noBypass hkey⟩
  | constant hkey => exact ⟨(Json.step_eq_of_key_isPrefix hstart).1, .constant hkey⟩
  | nested hkey hscope => exact ⟨(Json.step_eq_of_key_isPrefix hstart).1, .nested hkey hscope⟩
  | unknown hkey hscope hget =>
      exact ⟨(Json.step_eq_of_key_isPrefix hstart).1, .unknown hkey hscope hget⟩
  | scalar hkey hgate hvalue =>
      obtain ⟨hstep, hpart⟩ := Json.step_eq_of_key_isPrefix hstart
      obtain rfl := Json.eq_of_scalar_isPrefix hvalue hpart
      exact ⟨hstep, .scalar hkey hgate hvalue⟩

/-- How a member is read is told by its step and the first visit of what stands there. -/
theorem readStep_of_firstVisit_eq (hfirst : part.firstVisit = part'.firstVisit)
    (h : readStep registry scope step part = .ok reading) :
    readStep registry scope step part' = .ok reading := by
  cases step with
  | none => exact h
  | some key =>
      rw [readStep, readKey_eq_ok_iff] at h ⊢
      cases h with
      | position hkey => exact .position hkey
      | gate hkey hvalue =>
          rw [Json.isCollection_eq_of_firstVisit_eq hfirst] at hvalue
          exact .gate hkey hvalue
      | type hkey hscope hget => exact .type hkey hscope hget

/-- The first fault is told by what the walk has met: every value through which the walk begins
alike has the same first fault. -/
theorem FirstFault.of_isPrefix (h : FirstFault registry scope g room value seen fault)
    (hstart : seen <+: other.walk ++ rest) :
    FirstFault registry scope g room other seen fault := by
  induction h generalizing other rest with
  | scalar hfault =>
      obtain rfl := Json.eq_of_scalar_isPrefix hfault.isCollection hstart
      exact .scalar hfault
  | deep hvalue =>
      obtain ⟨hother, hkind, -⟩ := Json.enter_of_isPrefix hvalue hstart
      rw [hkind]
      exact .deep hother
  | key hmembers hbefore hkey =>
      have hvalue := Json.isCollection_of_members_eq hmembers
      obtain ⟨-, hkind, hrest⟩ := Json.enter_of_isPrefix hvalue hstart
      -- the members before the fault are those of the other value, and one more comes after them
      obtain ⟨⟨step, part'⟩, after', hmembers', hpart⟩ :=
        (Json.selfDelimiting_members _).exists_split hkey.not_isPrefix_leave hrest
      rw [Json.walkMember_append] at hpart
      obtain ⟨rfl, hkey'⟩ := hkey.of_isPrefix hpart
      rw [hkind]
      exact .key hmembers' hbefore hkey'
  | member hmembers hbefore hstep hfirst ih =>
      have hvalue := Json.isCollection_of_members_eq hmembers
      obtain ⟨-, hkind, hrest⟩ := Json.enter_of_isPrefix hvalue hstart
      obtain ⟨tail, rfl⟩ := hfirst.exists_seen_eq
      obtain ⟨⟨step', part'⟩, after', hmembers', hpart⟩ :=
        (Json.selfDelimiting_members _).exists_split Json.not_isPrefix_leave hrest
      rw [Json.walkMember_append] at hpart
      obtain ⟨rfl, hinner⟩ := Json.step_eq_of_isPrefix hpart
      have hstep' := readStep_of_firstVisit_eq (Json.firstVisit_eq_of_isPrefix hinner) hstep
      rw [hkind]
      exact .member hmembers' hbefore hstep' (ih hinner)
  | count hinputs hcount =>
      obtain ⟨later, hlater⟩ := hstart
      obtain ⟨rfl, -⟩ := Json.walk_append_inj hlater
      exact .count hinputs hcount

end Seen

/-! ## There is one first fault -/

section Unique

variable {key : String} {part : Json} {step : Option String}
  {before after : List (Option String × Json)} {seen seen' : List Json.Visit} {fault' : Fault}

/-- What the walk has met when a key is at fault is determined. -/
theorem KeyFault.seen_unique (h : KeyFault registry scope key part seen fault)
    (h' : KeyFault registry scope key part seen' fault') : seen = seen' := by
  cases h with
  | scalar hkey =>
      cases h' with
      | scalar => rfl
      | noBypass hkey' | constant hkey' | nested hkey' | unknown hkey' =>
          rw [hkey] at hkey'
          cases hkey'
  | noBypass hkey | constant hkey | nested hkey | unknown hkey =>
      cases h' with
      | scalar hkey' =>
          rw [hkey] at hkey'
          cases hkey'
      | noBypass | constant | nested | unknown => rfl

/-- The walk has met all of a value that is no collection, or whose siblings are read. -/
theorem FirstFault.seen_eq_walk (h : FirstFault registry scope g room value seen fault)
    (hread : value.isCollection = false ∨
      ∃ inputs, siblings registry scope room value = .ok inputs) : seen = value.walk := by
  have hnever : ∀ {cause : Fault}, value.isCollection = true →
      siblings registry scope room value = .error cause → False := by
    intro cause hvalue herror
    rcases hread with hscalar | ⟨inputs, hinputs⟩
    · rw [hvalue] at hscalar
      cases hscalar
    · rw [herror] at hinputs
      cases hinputs
  cases h with
  | scalar hfault => rw [Json.walk_scalar hfault.isCollection]
  | count => rfl
  | deep hvalue => exact (hnever hvalue (siblings_zero registry scope hvalue)).elim
  | key hmembers hbefore hkey =>
      have hvalue := Json.isCollection_of_members_eq hmembers
      have herror := siblings_eq_error_of_members hmembers hbefore hkey.member_eq_error
      exact (hnever hvalue herror).elim
  | member hmembers hbefore hstep hpart =>
      have hvalue := Json.isCollection_of_members_eq hmembers
      have hmember := member_eq_error hstep hpart.eq_error
      exact (hnever hvalue (siblings_eq_error_of_members hmembers hbefore hmember)).elim

/-- Where a member is the first that fails, the first fault is found in its key or in what stands
there. -/
theorem FirstFault.exists_member (hmembers : value.members = before ++ (step, part) :: after)
    (hbefore : ∀ earlier ∈ before, Acceptable registry scope room earlier)
    (hmember : Expression.member registry scope room (step, part) = .error fault)
    (h : FirstFault registry scope g (room + 1) value seen fault') :
    ∃ inner, seen = .enter value.kind :: (before.flatMap Json.walkMember ++ inner) ∧
      ((∃ key, step = some key ∧ KeyFault registry scope key part inner fault') ∨
        ∃ reading found, readStep registry scope step part = .ok reading ∧
          inner = Json.walkStep step ++ found ∧
          FirstFault registry reading.scope reading.gate room part found fault') := by
  cases h with
  | scalar hfault =>
      have hvalue := Json.isCollection_of_members_eq hmembers
      rw [hfault.isCollection] at hvalue
      cases hvalue
  | count hinputs =>
      rw [siblings_eq_error_of_members hmembers hbefore hmember] at hinputs
      cases hinputs
  | key hmembers' hbefore' hkey =>
      obtain ⟨rfl, hfirst⟩ := first_unique (hmembers.symm.trans hmembers') hbefore
        (not_acceptable hmember) hbefore' (not_acceptable hkey.member_eq_error)
      cases hfirst
      exact ⟨_, rfl, Or.inl ⟨_, rfl, hkey⟩⟩
  | member hmembers' hbefore' hstep hpart =>
      have hmember' := member_eq_error hstep hpart.eq_error
      obtain ⟨rfl, hfirst⟩ := first_unique (hmembers.symm.trans hmembers') hbefore
        (not_acceptable hmember) hbefore' (not_acceptable hmember')
      cases hfirst
      exact ⟨_, rfl, Or.inr ⟨_, _, hstep, rfl, hpart⟩⟩

/-- What the walk has met when the first fault is told is determined. -/
theorem FirstFault.seen_unique (h : FirstFault registry scope g room value seen fault)
    (h' : FirstFault registry scope g room value seen' fault') : seen = seen' := by
  induction h generalizing seen' fault' with
  | scalar hfault =>
      rw [h'.seen_eq_walk (Or.inl hfault.isCollection), Json.walk_scalar hfault.isCollection]
  | count hinputs => exact (h'.seen_eq_walk (Or.inr ⟨_, hinputs⟩)).symm
  | deep hvalue =>
      cases h' with
      | deep => rfl
      | scalar hfault =>
          rw [hfault.isCollection] at hvalue
          cases hvalue
      | count hinputs =>
          rw [siblings_zero registry _ hvalue] at hinputs
          cases hinputs
  | key hmembers hbefore hkey =>
      obtain ⟨inner, rfl, ⟨key, hstep, hkey'⟩ | ⟨reading, found, hstep, -, -⟩⟩ :=
        h'.exists_member hmembers hbefore hkey.member_eq_error
      · cases hstep
        rw [hkey.seen_unique hkey']
      · rw [hkey.readStep_eq_error] at hstep
        cases hstep
  | member hmembers hbefore hstep hpart ih =>
      obtain ⟨inner, rfl, ⟨key, rfl, hkey⟩ | ⟨reading, found, hstep', rfl, hpart'⟩⟩ :=
        h'.exists_member hmembers hbefore (member_eq_error hstep hpart.eq_error)
      · rw [hkey.readStep_eq_error] at hstep
        cases hstep
      · rw [hstep] at hstep'
        cases hstep'
        rw [ih hpart']

end Unique

/-! ## Whole expressions -/

/-- At fault in an empty collection, for which there is room, is only the number of its inputs. -/
theorem FirstFault.seen_of_empty {seen : List Json.Visit}
    (h : FirstFault registry scope g (room + 1) value seen fault)
    (hempty : value = .array [] ∨ value = .object []) : seen = value.walk := by
  refine h.seen_eq_walk (Or.inr ⟨[], ?_⟩)
  rcases hempty with rfl | rfl <;> rfl

/-- **Faults are reported in document order.**  A rejected expression that is neither null nor a
number has one first fault in its walk, and is rejected for it.  What the walk has met by then is
all that counts: every value through which the walk begins alike is rejected for the same fault,
whatever follows. -/
theorem faults_in_document_order {registry : Registry κ} {raw : Json} {fault : Fault}
    (hkind : raw.kind ≠ .null ∧ raw.kind ≠ .number) (hread : read registry raw = .error fault) :
    ∃ seen, FirstFault registry none .or nestingLimit raw seen fault ∧ seen <+: raw.walk ∧
      (∀ seen' fault', FirstFault registry none .or nestingLimit raw seen' fault' →
        seen' = seen ∧ fault' = fault) ∧
      ∀ other : Json, seen <+: other.walk → read registry other = .error fault := by
  have hempty : ¬ (raw = .array [] ∨ raw = .object []) := by
    rintro (rfl | rfl) <;> cases hread
  rw [read_eq_unit hkind hempty] at hread
  obtain ⟨seen, hfirst⟩ := exists_firstFault hread
  refine ⟨seen, hfirst, hfirst.isPrefix_walk, ?_, ?_⟩
  · intro seen' fault' hother
    have herror := hother.eq_error.symm.trans hfirst.eq_error
    exact ⟨hother.seen_unique hfirst, Except.error.inj herror⟩
  · intro other hstart
    have hstart' : seen <+: other.walk ++ [] := by rwa [List.append_nil]
    have hother : FirstFault registry none .or (127 + 1) other seen fault :=
      hfirst.of_isPrefix hstart'
    have hkind' : other.kind ≠ .null ∧ other.kind ≠ .number := by
      obtain ⟨tail, rfl⟩ := hfirst.exists_seen_eq
      rwa [← Json.kind_eq_of_firstVisit_eq (Json.firstVisit_eq_of_isPrefix hstart')]
    have hempty' : ¬ (other = .array [] ∨ other = .object []) := by
      intro hnone
      -- the walk has then met all of the other value, which is the expression itself
      obtain ⟨later, hlater⟩ := hfirst.isPrefix_walk
      rw [hother.seen_of_empty hnone, ← List.append_nil raw.walk] at hlater
      rw [(Json.walk_append_inj hlater).1] at hnone
      exact hempty hnone
    rw [read_eq_unit hkind' hempty']
    exact hother.eq_error

/-- A conjunction without inputs stands between an administrator and a number, before a constant as
key.  The first fault is told as the walk leaves the conjunction, after eight visits; a value that
begins with these and goes on with other faults is rejected for the same one. -/
theorem faults_in_document_order_conjunction :
    let conjunction : Json := .object [("AND", .array [])]
    let raw : Json := .object [("role", .array [.string "admin", conjunction, .number (.int 5)]),
      ("TRUE", .bool true)]
    let other : Json := .object [("role", .array [.string "admin",
      .object [("AND", .array []), ("NO_BYPASS", .null)]])]
    read .roles raw = .error (.tooFewInputs .and 0) ∧
      FirstFault .roles none .or nestingLimit raw (raw.walk.take 8) (.tooFewInputs .and 0) ∧
      read .roles other = .error (.tooFewInputs .and 0) := by
  intro conjunction raw other
  have hread : read .roles raw = .error (.tooFewInputs .and 0) := rfl
  obtain ⟨seen, hfirst, -, hunique, hothers⟩ :=
    faults_in_document_order (by decide : raw.kind ≠ .null ∧ raw.kind ≠ .number) hread
  have hinputs : siblings .roles (some ("role", ())) 125 (.array []) = .ok [] := rfl
  have hconjunction : conjunction.members = [] ++ (some "AND", .array []) :: [] := rfl
  have hinner : FirstFault .roles (some ("role", ())) .or 126 conjunction _
      (.tooFewInputs .and 0) :=
    .member hconjunction (List.forall_mem_nil _) rfl (.count hinputs rfl)
  have hadmin : Acceptable .roles (some ("role", ())) 126 (none, .string "admin") := ⟨_, rfl⟩
  have hitems : Json.members (.array [.string "admin", conjunction, .number (.int 5)]) =
      [(none, .string "admin")] ++ (none, conjunction) :: [(none, .number (.int 5))] := rfl
  have hrole : FirstFault .roles (some ("role", ())) .or 127 _ _ (.tooFewInputs .and 0) :=
    .member hitems (List.forall_mem_singleton.2 hadmin) rfl hinner
  have hentries : raw.members = [] ++
      (some "role", .array [.string "admin", conjunction, .number (.int 5)]) ::
        [(some "TRUE", .bool true)] := rfl
  have hwhole : FirstFault .roles none .or nestingLimit raw (raw.walk.take 8)
      (.tooFewInputs .and 0) := .member hentries (List.forall_mem_nil _) rfl hrole
  have hseen : raw.walk.take 8 = seen := (hunique _ _ hwhole).1
  refine ⟨hread, hwhole, hothers other ?_⟩
  rw [← hseen]
  exact ⟨_, rfl⟩

end Expression

end Clearance
