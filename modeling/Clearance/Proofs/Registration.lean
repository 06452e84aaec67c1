import Clearance.Proofs.Induction
import Clearance.Proofs.Keys
import Clearance.Registry.Change
import Mathlib.Data.List.Induction
import Mathlib.Data.List.Nodup

/-!
# Runs of registrations

A registry as a finite map.  Whatever has been added, removed, replaced and cleared before, a type
has the checker that it was registered with last, unless it has been taken out since; a change that
fails leaves nothing behind.
-/

namespace Clearance

variable {κ : Type}

/-! ## Members of a list -/

/-- A list with a first member is split at that member or after it. -/
theorem forall_split_cons {α : Type} {P : List α → α → List α → Prop} {first : α} {xs : List α} :
    (∀ before x after, first :: xs = before ++ x :: after → P before x after) ↔
      P [] first xs ∧ ∀ before x after, xs = before ++ x :: after → P (first :: before) x after := by
  constructor
  · intro h
    refine ⟨h [] first xs rfl, ?_⟩
    rintro before x after rfl
    exact h (first :: before) x after rfl
  · rintro ⟨hfirst, hafter⟩ before x after hsplit
    cases before with
    | nil =>
        cases hsplit
        exact hfirst
    | cons _ before =>
        cases hsplit
        exact hafter before x after rfl

/-- A list with a first member can be split as wanted at that member or after it. -/
theorem exists_split_cons {α : Type} {P : List α → α → List α → Prop} {first : α} {xs : List α} :
    (∃ before x after, first :: xs = before ++ x :: after ∧ P before x after) ↔
      P [] first xs ∨ ∃ before x after, xs = before ++ x :: after ∧ P (first :: before) x after := by
  have hnot := not_congr (@forall_split_cons α (fun before x after => ¬ P before x after) first xs)
  push Not at hnot
  rw [hnot]
  tauto

/-- A list with a last member is split at that member or before it. -/
theorem forall_split_concat {α : Type} {P : List α → α → List α → Prop} {xs : List α} {last : α} :
    (∀ before x after, xs ++ [last] = before ++ x :: after → P before x after) ↔
      P xs last [] ∧ ∀ before x after, xs = before ++ x :: after → P before x (after ++ [last]) := by
  constructor
  · intro h
    refine ⟨h xs last [] rfl, ?_⟩
    rintro before x after rfl
    exact h before x (after ++ [last]) (by simp)
  · rintro ⟨hlast, hbefore⟩ before x after hsplit
    rcases List.eq_nil_or_concat' after with rfl | ⟨init, final, rfl⟩
    · obtain ⟨rfl, hx⟩ := List.append_inj' hsplit rfl
      cases hx
      exact hlast
    · have hsplit : xs ++ [last] = (before ++ x :: init) ++ [final] := by simp [hsplit]
      obtain ⟨rfl, hx⟩ := List.append_inj' hsplit rfl
      cases hx
      exact hbefore before x init rfl

/-- A list with a last member can be split as wanted at that member or before it. -/
theorem exists_split_concat {α : Type} {P : List α → α → List α → Prop} {xs : List α} {last : α} :
    (∃ before x after, xs ++ [last] = before ++ x :: after ∧ P before x after) ↔
      P xs last [] ∨ ∃ before x after, xs = before ++ x :: after ∧ P before x (after ++ [last]) := by
  have hnot := not_congr (@forall_split_concat α (fun before x after => ¬ P before x after) xs last)
  push Not at hnot
  rw [hnot]
  tauto

namespace Registry

/-! ## Entries -/

/-- A name is found in sorted entries with the checker that it stands there with. -/
theorem lookup_eq_some_iff {entries : List (String × κ)} {name : String} {checker : κ}
    (hsorted : entries.Pairwise (·.1 < ·.1)) :
    entries.lookup name = some checker ↔ (name, checker) ∈ entries := by
  induction entries with
  | nil => simp
  | cons first rest ih =>
      obtain ⟨key, value⟩ := first
      obtain ⟨habove, hrest⟩ := List.pairwise_cons.1 hsorted
      rw [List.lookup_cons, List.mem_cons]
      by_cases hname : name = key
      · -- the names after the first are larger, so that none of them is the same
        subst hname
        have hnot : (name, checker) ∉ rest := fun hmem =>
          String.lt_irrefl name (habove (name, checker) hmem)
        simp [hnot, eq_comm]
      · rw [beq_eq_false_iff_ne.2 hname]
        simp [hname, ih hrest]

/-- A type has the checker that it stands with in the entries. -/
theorem get?_eq_some_iff {registry : Registry κ} {name : String} {checker : κ} :
    registry.get? name = some checker ↔ (name, checker) ∈ registry.entries :=
  lookup_eq_some_iff registry.sorted

/-- A type is missing exactly if its name is not among the names. -/
theorem get?_eq_none_iff {registry : Registry κ} {name : String} :
    registry.get? name = none ↔ name ∉ registry.names := by
  rw [mem_names, has, Option.isSome_iff_ne_none, not_not]

/-! ## Additions -/

/-- Why a type cannot be registered beside those of some names: its name is not valid, or it is one
of them. -/
@[mk_iff]
inductive AddFault (names : List String) (name : String) : Fault → Prop
  | invalid {fault : Fault} (hname : nameFault? name = some fault) : AddFault names name fault
  | taken (hname : nameFault? name = none) (htaken : name ∈ names) :
      AddFault names name (.typeTaken name)

/-- The order of the names taken does not matter. -/
theorem addFault_congr {names names' : List String} (h : ∀ name, name ∈ names ↔ name ∈ names')
    {name : String} {fault : Fault} : AddFault names name fault ↔ AddFault names' name fault := by
  rw [addFault_iff, addFault_iff, h]

/-- A type is refused for one of these causes, and the registry is left as it was. -/
theorem add_eq_error_iff {registry left : Registry κ} {name : String} {checker : κ}
    {fault : Fault} :
    (add name checker).run registry = .error fault left ↔
      AddFault registry.names name fault ∧ left = registry := by
  rw [addFault_iff, mem_names, has, @eq_comm _ left]
  unfold add
  split
  · rename_i found hname
    simp [hname]
  · rename_i hname
    rw [EStateM.run_bind, EStateM.run_get]
    dsimp only
    split
    · rename_i found hget
      simp [hname, hget, @eq_comm _ fault]
    · rename_i hget
      simp [hname, hget]

/-- A registration adds its entry. -/
theorem entries_of_add {registry next : Registry κ} {name : String} {checker : κ}
    (hadd : (add name checker).run registry = .ok () next) :
    next.entries = insertEntry name checker registry.entries := by
  obtain ⟨hvalid, hfree, rfl⟩ := add_eq_ok_iff.1 hadd
  rfl

/-! ## Removals -/

/-- A removal takes out the entry of a type and gives its checker, if there is one. -/
theorem run_remove (registry : Registry κ) (name : String) :
    (remove name).run registry = match registry.get? name with
      | some checker => .ok checker (registry.erase name)
      | none => .error (.unknownType name) (registry.erase name) := by
  rw [remove, EStateM.run_bind, EStateM.run_get]
  dsimp only
  rw [EStateM.run_bind, EStateM.run_set]
  cases registry.get? name <;> rfl

/-- A removal succeeds exactly if there is such a type. -/
theorem remove_eq_ok_iff {registry next : Registry κ} {name : String} {checker : κ} :
    (remove name).run registry = .ok checker next ↔
      registry.get? name = some checker ∧ registry.erase name = next := by
  rw [run_remove]
  cases registry.get? name <;> simp

/-- A removal fails exactly if there is no such type.  What it takes out is nothing then. -/
theorem remove_eq_error_iff {registry left : Registry κ} {name : String} {fault : Fault} :
    (remove name).run registry = .error fault left ↔
      (name ∉ registry.names ∧ fault = .unknownType name) ∧ left = registry := by
  rw [← get?_eq_none_iff, run_remove, @eq_comm _ left, @eq_comm _ fault]
  cases hget : registry.get? name with
  | none => simp [erase_of_get?_eq_none hget]
  | some checker => simp

/-! ## Replacements -/

/-- Types that can be registered together: their names are valid and differ from each other. -/
def Together (types : List (String × κ)) : Prop :=
  (∀ entry ∈ types, nameFault? entry.1 = none) ∧ (types.map (·.1)).Nodup

/-- One more type can be registered with others if nothing is wrong with its name beside them. -/
theorem together_concat_iff {types : List (String × κ)} {entry : String × κ} :
    Together (types ++ [entry]) ↔
      Together types ∧ nameFault? entry.1 = none ∧ entry.1 ∉ types.map (·.1) := by
  rw [Together, Together, List.forall_mem_append, List.forall_mem_singleton, List.map_append,
    List.map_singleton, ← List.concat_eq_append, List.nodup_concat]
  tauto

/-- The types of a list are registered from left to right. -/
theorem addEach_concat (types : List (String × κ)) (entry : String × κ) :
    addEach (types ++ [entry]) = addEach types >>= fun _ => add entry.1 entry.2 := by
  rw [addEach, List.forM_append]
  simp [addEach]

/-- The types of a list, registered from the start, are the entries of the registry. -/
theorem mem_entries_addEach {types : List (String × κ)} {registry : Registry κ}
    (heach : (addEach types).run empty = .ok () registry) (entry : String × κ) :
    entry ∈ registry.entries ↔ entry ∈ types := by
  induction types using List.reverseRecOn generalizing registry with
  | nil =>
      cases heach
      exact Iff.rfl
  | append_singleton types last ih =>
      rw [addEach_concat] at heach
      obtain ⟨_, before, hbefore, hadd⟩ := Mutation.run_bind_eq_ok_iff.1 heach
      rw [entries_of_add hadd, mem_insertEntry, ih hbefore, List.mem_append, List.mem_singleton]
      tauto

/-- The names of a list are those of the registry. -/
theorem mem_names_addEach {types : List (String × κ)} {registry : Registry κ}
    (heach : (addEach types).run empty = .ok () registry) (name : String) :
    name ∈ registry.names ↔ name ∈ types.map (·.1) := by
  rw [names, List.mem_map, List.mem_map]
  simp only [mem_entries_addEach heach]

/-- All types of a list can be registered from the start exactly if they can be registered
together. -/
theorem exists_addEach_iff {types : List (String × κ)} :
    (∃ registry, (addEach types).run empty = .ok () registry) ↔ Together types := by
  induction types using List.reverseRecOn with
  | nil => exact ⟨fun _ => ⟨by simp, List.nodup_nil⟩, fun _ => ⟨empty, rfl⟩⟩
  | append_singleton types last ih =>
      rw [together_concat_iff, ← ih, addEach_concat]
      constructor
      · rintro ⟨registry, heach⟩
        obtain ⟨_, before, hbefore, hadd⟩ := Mutation.run_bind_eq_ok_iff.1 heach
        obtain ⟨hname, hfree⟩ := exists_add_iff.1 ⟨registry, hadd⟩
        refine ⟨⟨before, hbefore⟩, hname, ?_⟩
        rw [← mem_names_addEach hbefore, mem_names, hfree]
        simp
      · rintro ⟨⟨before, hbefore⟩, hname, hfree⟩
        rw [← mem_names_addEach hbefore, mem_names, Bool.not_eq_true] at hfree
        obtain ⟨registry, hadd⟩ := exists_add_iff.2 ⟨hname, hfree⟩
        exact ⟨registry, Mutation.run_bind_eq_ok_iff.2 ⟨(), before, hbefore, hadd⟩⟩

/-- The first entry of a list that cannot be registered after those before it. -/
def FirstFault (types : List (String × κ)) (fault : Fault) : Prop :=
  ∃ before entry after, types = before ++ entry :: after ∧ Together before ∧
    AddFault (before.map (·.1)) entry.1 fault

/-- The types of a list cannot all be registered from the start if one of its entries is faulty, and
the first of these is reported. -/
theorem exists_addEach_eq_error_iff {types : List (String × κ)} {fault : Fault} :
    (∃ left, (addEach types).run empty = .error fault left) ↔ FirstFault types fault := by
  induction types using List.reverseRecOn with
  | nil => simp [addEach, FirstFault]
  | append_singleton types last ih =>
      rw [FirstFault, exists_split_concat, ← FirstFault, ← ih, addEach_concat,
        ← exists_addEach_iff]
      simp only [Mutation.run_bind_eq_error_iff, exists_or]
      rw [or_comm]
      refine or_congr ?_ Iff.rfl
      constructor
      · rintro ⟨left, _, before, hbefore, hadd⟩
        refine ⟨⟨before, hbefore⟩, ?_⟩
        exact (addFault_congr (mem_names_addEach hbefore)).1 (add_eq_error_iff.1 hadd).1
      · rintro ⟨⟨before, hbefore⟩, hfault⟩
        refine ⟨before, (), before, hbefore, add_eq_error_iff.2 ⟨?_, rfl⟩⟩
        exact (addFault_congr (mem_names_addEach hbefore)).2 hfault

/-- All types are replaced exactly if the others can be registered from the start. -/
theorem replaceAll_eq_ok_iff {registry next : Registry κ} {types : List (String × κ)} :
    (replaceAll types).run registry = .ok () next ↔ (addEach types).run empty = .ok () next := by
  rw [replaceAll]
  cases (addEach types).run empty <;> simp

/-- No type is replaced if one of the others is faulty, and the first of these is reported. -/
theorem replaceAll_eq_error_iff {registry left : Registry κ} {types : List (String × κ)}
    {fault : Fault} :
    (replaceAll types).run registry = .error fault left ↔
      FirstFault types fault ∧ left = registry := by
  rw [← exists_addEach_eq_error_iff, replaceAll]
  cases (addEach types).run empty <;> simp [eq_comm]

/-! ## Changes -/

/-- The causes for which a change fails.  Whether all types can be replaced by others does not
depend on those that are registered. -/
@[mk_iff]
inductive Refused (registry : Registry κ) : Change κ → Fault → Prop
  | add {name : String} {checker : κ} {fault : Fault}
      (hadd : AddFault registry.names name fault) : Refused registry (.add name checker) fault
  | remove {name : String} (hname : name ∉ registry.names) :
      Refused registry (.remove name) (.unknownType name)
  | set {types : List (String × κ)} {fault : Fault} (hfirst : FirstFault types fault) :
      Refused registry (.set types) fault

/-- A change fails for one of these causes, and leaves the registry as it was. -/
theorem perform_eq_error_iff {registry left : Registry κ} {change : Change κ} {fault : Fault} :
    change.perform.run registry = .error fault left ↔
      registry.Refused change fault ∧ left = registry := by
  rw [refused_iff]
  cases change with
  | add name checker => simp [Change.perform, add_eq_error_iff]
  | remove name => simp [Change.perform, Mutation.run_discard_eq_error_iff, remove_eq_error_iff]
  | set types => simp [Change.perform, replaceAll_eq_error_iff]
  | clear => simp [Change.perform, clear]

/-- Changes of registries are atomic. -/
theorem atomic_perform (change : Change κ) : Mutation.Atomic change.perform :=
  fun _ _ _ hfails => (perform_eq_error_iff.1 hfails).2

/-! ## What a run leaves registered -/

/-- A change does not fail. -/
def Succeeds (registry : Registry κ) (change : Change κ) : Prop :=
  ∃ changed, change.perform.run registry = .ok () changed

/-- Whether a change registers a type with a checker, by itself or among others. -/
def Change.Registers (name : String) (checker : κ) : Change κ → Prop
  | .add added own => added = name ∧ own = checker
  | .set types => (name, checker) ∈ types
  | .remove _ | .clear => False

/-- Whether a change takes a type out, by itself or with all others. -/
def Change.Discards (name : String) : Change κ → Prop
  | .remove removed => removed = name
  | .set _ | .clear => True
  | .add _ _ => False

/-- Whether a change registers a type or takes it out. -/
def Change.Concerns (name : String) (change : Change κ) : Prop :=
  change.Discards name ∨ ∃ checker, change.Registers name checker

/-- After a change that succeeds a type has the checker that it is registered with, or the one that
it had if the change does not concern it. -/
theorem get?_of_perform {registry changed : Registry κ} {change : Change κ}
    (hperform : change.perform.run registry = .ok () changed) {name : String} {checker : κ} :
    changed.get? name = some checker ↔ change.Registers name checker ∨
      registry.get? name = some checker ∧ ¬ change.Concerns name := by
  rw [get?_eq_some_iff, get?_eq_some_iff]
  cases change with
  | add added own =>
      obtain ⟨-, hfree⟩ := exists_add_iff.1 ⟨changed, hperform⟩
      have hnew : ∀ checker, (added, checker) ∉ registry.entries := by
        intro checker hmem
        rw [has, get?_eq_some_iff.2 hmem] at hfree
        cases hfree
      rw [entries_of_add hperform, mem_insertEntry]
      simp only [Change.Registers, Change.Concerns, Change.Discards, Prod.mk.injEq]
      by_cases hname : added = name
      · subst hname
        simp [hnew, @eq_comm κ own]
      · simp [hname, Ne.symm hname]
  | remove removed =>
      obtain ⟨own, hremove⟩ := Mutation.run_discard_eq_ok_iff.1 hperform
      obtain ⟨-, rfl⟩ := remove_eq_ok_iff.1 hremove
      rw [erase, List.mem_filter]
      simp [Change.Registers, Change.Concerns, Change.Discards, @eq_comm String removed]
  | set types =>
      rw [mem_entries_addEach (replaceAll_eq_ok_iff.1 hperform)]
      simp [Change.Registers, Change.Concerns, Change.Discards]
  | clear =>
      cases hperform
      simp [Change.Registers, Change.Concerns, Change.Discards, empty]

/-- A change that fails leaves the registry as it was. -/
theorem next_of_refused {registry : Registry κ} {change : Change κ} {fault : Fault}
    (hrefused : registry.Refused change fault) : registry.next change = registry := by
  have hfails : change.perform.run registry = .error fault registry :=
    perform_eq_error_iff.2 ⟨hrefused, rfl⟩
  exact Mutation.leaves_of_error hfails

/-- After a change, whether or not it succeeds, a type has the checker that it is registered with, or
the one that it had. -/
theorem get?_next {registry : Registry κ} {change : Change κ} {name : String} {checker : κ} :
    (registry.next change).get? name = some checker ↔
      registry.Succeeds change ∧ change.Registers name checker ∨
        registry.get? name = some checker ∧
          ¬ (registry.Succeeds change ∧ change.Concerns name) := by
  rw [Succeeds]
  cases hperform : change.perform.run registry with
  | error fault left =>
      obtain ⟨hrefused, rfl⟩ := perform_eq_error_iff.1 hperform
      simp [next_of_refused hrefused]
  | ok _ changed =>
      rw [next, Mutation.leaves_of_ok hperform]
      simp [get?_of_perform hperform]

/-- The latest change of a run that succeeds and concerns a type registers it with a checker. -/
def Latest (changes : List (Change κ)) (name : String) (checker : κ) : Prop :=
  ∃ before change later, changes = before ++ change :: later ∧
    ((empty : Registry κ).after before).Succeeds change ∧ change.Registers name checker ∧
    ∀ between other rest, later = between ++ other :: rest →
      ((empty : Registry κ).after (before ++ change :: between)).Succeeds other →
      ¬ other.Concerns name

/-- One more change registers a type, or leaves alone what has been registered latest. -/
theorem latest_concat_iff {changes : List (Change κ)} {last : Change κ} {name : String}
    {checker : κ} :
    Latest (changes ++ [last]) name checker ↔
      ((empty : Registry κ).after changes).Succeeds last ∧ last.Registers name checker ∨
        Latest changes name checker ∧
          ¬ (((empty : Registry κ).after changes).Succeeds last ∧ last.Concerns name) := by
  rw [Latest, exists_split_concat, Latest]
  refine or_congr (by simp) ?_
  simp only [forall_split_concat]
  constructor
  · rintro ⟨before, change, later, rfl, hsucceeds, hregisters, hlast, hlater⟩
    exact ⟨⟨before, change, later, rfl, hsucceeds, hregisters, hlater⟩, fun h => hlast h.1 h.2⟩
  · rintro ⟨⟨before, change, later, rfl, hsucceeds, hregisters, hlater⟩, hlast⟩
    exact ⟨before, change, later, rfl, hsucceeds, hregisters, fun h h' => hlast ⟨h, h'⟩, hlater⟩

/-- After a run from the registry without types, a type has the checker that it was registered with
latest. -/
theorem get?_after_iff_latest (changes : List (Change κ)) (name : String) (checker : κ) :
    ((empty : Registry κ).after changes).get? name = some checker ↔
      Latest changes name checker := by
  induction changes using List.reverseRecOn with
  | nil => simp [after, Latest]
  | append_singleton changes last ih => rw [after_concat, get?_next, latest_concat_iff, ih]

/-! ## Names -/

/-- The names of a registry are not empty, and none is a position or a keyword. -/
theorem isTypeKey_of_mem_names {registry : Registry κ} {name : String}
    (h : name ∈ registry.names) : name ≠ "" ∧ IsTypeKey name := by
  obtain ⟨entry, hentry, rfl⟩ := List.mem_map.1 h
  exact nameFault?_eq_none_iff.1 (registry.named entry hentry)

/-- No name is a keyword, in any letter case. -/
theorem sameWord_reserved_names {registry : Registry κ} {word name : String}
    (hword : word ∈ Keyword.reserved) (hname : name ∈ registry.names) :
    sameWord word name = false := by
  rw [sameWord_comm]
  exact (isTypeKey_of_mem_names hname).2.2 word hword

/-- No valid key is listed twice. -/
theorem nodup_validKeys (registry : Registry κ) : registry.validKeys.Nodup := by
  have hnames : registry.names.Nodup := by
    refine registry.names_sorted.imp ?_
    rintro name _ hlt rfl
    exact String.lt_irrefl name hlt
  refine List.nodup_append.2 ⟨by decide, hnames, ?_⟩
  intro word hword name hname heq
  have hsame := sameWord_reserved_names hword hname
  rw [heq, sameWord_self] at hsame
  cases hsame

/-- **A registry is a finite map with valid names.**  After any run of changes a type has the checker
that it was registered with latest, and is unknown if there is none.  A change fails exactly for the
causes listed, and then leaves the registry as it was.  The names are in strictly ascending order,
they are those of the types known, and none of them can be taken for a position or a keyword. -/
theorem finite_map_of_valid_names (changes : List (Change κ)) :
    let registry := (empty : Registry κ).after changes
    (∀ name checker, registry.get name = .ok checker ↔ Latest changes name checker) ∧
    (∀ name, (∀ checker, ¬ Latest changes name checker) →
      registry.get name = .error (.unknownType name)) ∧
    (∀ change fault left, change.perform.run registry = .error fault left ↔
      registry.Refused change fault ∧ left = registry) ∧
    (∀ change fault, registry.Refused change fault → registry.next change = registry) ∧
    registry.names.Pairwise (· < ·) ∧
    (∀ name, registry.has name = true ↔ name ∈ registry.names) ∧
    registry.size = registry.names.length ∧
    (∀ name ∈ registry.names, name ≠ "" ∧ IsTypeKey name) ∧
    registry.validKeys = Keyword.reserved ++ registry.names ∧
    registry.validKeys.Nodup ∧
    ∀ word ∈ Keyword.reserved, ∀ name ∈ registry.names, sameWord word name = false := by
  intro registry
  have hget : ∀ name checker, registry.get? name = some checker ↔ Latest changes name checker :=
    get?_after_iff_latest changes
  refine ⟨?_, ?_, fun _ _ _ => perform_eq_error_iff, fun _ _ => next_of_refused,
    registry.names_sorted, fun name => (registry.mem_names name).symm, (List.length_map ..).symm,
    fun name => isTypeKey_of_mem_names, rfl, registry.nodup_validKeys,
    fun word hword name hname => sameWord_reserved_names hword hname⟩
  · intro name checker
    rw [← hget, get]
    cases registry.get? name <;> simp
  · intro name hnone
    have habsent : registry.get? name = none := by
      rw [Option.eq_none_iff_forall_ne_some]
      exact fun checker h => hnone checker ((hget name checker).1 h)
    rw [get, habsent]

/-- The first faulty entry is reported, not the repeated one after it.  What comes before it is
registered when types are registered one after the other, but not when all are replaced. -/
example :
    let types := [("flag", 0), ("or", 1), ("flag", 2)]
    ((addEach types).leaves (empty : Registry Nat)).names = ["flag"] ∧
      (Change.set types).perform.run (empty : Registry Nat) = .error (.keywordName "or") empty :=
  ⟨rfl, rfl⟩

end Registry

end Clearance
