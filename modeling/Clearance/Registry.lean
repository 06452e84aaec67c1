import Clearance.Fault
import Clearance.Key
import Clearance.Literal
import Clearance.Mutation

/-!
# Registries

The permission types that an application knows, each with the checker that answers for it.  A
registry lists its types in ascending order of their names, and every name can be told from a
position and from a keyword; both facts are part of the type, so that a registry determines its
list of entries.  Types are registered and taken out in place.
-/

namespace Clearance

/-! ## Names of types -/

/-- What is wrong with the name of a type, if anything is. -/
def nameFault? (name : String) : Option Fault :=
  if name.toList.isEmpty then some .emptyName
  else if isPosition name then some (.positionName name)
  else if Keyword.reserved.any (sameWord · name) then some (.keywordName name)
  else none

/-! ## Sorted entries -/

/-- The entries with a new one put before the first larger name. -/
def insertEntry {κ : Type} (name : String) (checker : κ) : List (String × κ) → List (String × κ)
  | [] => [(name, checker)]
  | entry :: rest =>
    if name < entry.1 then (name, checker) :: entry :: rest
    else entry :: insertEntry name checker rest

/-- Insertion adds the new entry and keeps the others. -/
theorem mem_insertEntry {κ : Type} {name : String} {checker : κ} {entries : List (String × κ)}
    {entry : String × κ} :
    entry ∈ insertEntry name checker entries ↔ entry = (name, checker) ∨ entry ∈ entries := by
  induction entries with
  | nil => simp [insertEntry]
  | cons first rest ih =>
    rw [insertEntry]
    split
    · simp
    · simp only [List.mem_cons, ih]
      grind

/-- Insertion of a name that is not there keeps the names in ascending order. -/
theorem sorted_insertEntry {κ : Type} {name : String} {checker : κ} {entries : List (String × κ)}
    (hsorted : entries.Pairwise (·.1 < ·.1)) (hfresh : ∀ entry ∈ entries, entry.1 ≠ name) :
    (insertEntry name checker entries).Pairwise (·.1 < ·.1) := by
  induction entries with
  | nil => simp [insertEntry]
  | cons first rest ih =>
    obtain ⟨habove, hrest⟩ := List.pairwise_cons.1 hsorted
    rw [insertEntry]
    split
    · rename_i hsmaller
      refine List.pairwise_cons.2 ⟨fun entry hentry => ?_, hsorted⟩
      rcases List.mem_cons.1 hentry with rfl | hentry
      · exact hsmaller
      · exact String.lt_trans hsmaller (habove entry hentry)
    · rename_i hnotSmaller
      have hlarger : first.1 < name :=
        Std.not_le.1 fun hle => hfresh first (by simp)
          (Std.le_antisymm (Std.not_lt.1 hnotSmaller) hle)
      have hfreshRest : ∀ entry ∈ rest, entry.1 ≠ name :=
        fun entry hentry => hfresh entry (List.mem_cons_of_mem first hentry)
      refine List.pairwise_cons.2 ⟨fun entry hentry => ?_, ih hrest hfreshRest⟩
      rcases mem_insertEntry.1 hentry with rfl | hentry
      · exact hlarger
      · exact habove entry hentry

/-- A new name is found with its checker. -/
theorem lookup_insertEntry_self {κ : Type} {name : String} {checker : κ}
    {entries : List (String × κ)} (hfresh : ∀ entry ∈ entries, entry.1 ≠ name) :
    (insertEntry name checker entries).lookup name = some checker := by
  induction entries with
  | nil => simp [insertEntry]
  | cons first rest ih =>
    obtain ⟨key, value⟩ := first
    have hother : (name == key) = false :=
      beq_eq_false_iff_ne.2 (Ne.symm (hfresh (key, value) (by simp)))
    have hfound := ih fun entry hentry => hfresh entry (by simp [hentry])
    rw [insertEntry]
    split
    · simp
    · rw [List.lookup_cons, hother]
      exact hfound

/-- Insertion leaves the checkers of all other names as they are. -/
theorem lookup_insertEntry_of_ne {κ : Type} {name other : String} (hne : other ≠ name) (checker : κ)
    (entries : List (String × κ)) :
    (insertEntry name checker entries).lookup other = entries.lookup other := by
  induction entries with
  | nil => simp [insertEntry, hne]
  | cons first rest ih =>
    obtain ⟨key, value⟩ := first
    rw [insertEntry]
    split
    · simp [List.lookup_cons, beq_eq_false_iff_ne.2 hne]
    · simp [List.lookup_cons, ih]

/-! ## Registries -/

/-- The permission types known, with their checkers. -/
structure Registry (κ : Type) where
  entries : List (String × κ)
  sorted : entries.Pairwise (·.1 < ·.1)
  named : ∀ entry ∈ entries, nameFault? entry.1 = none

namespace Registry

variable {κ : Type}

/-- The registry without types. -/
def empty : Registry κ := ⟨[], .nil, by simp⟩

instance : Inhabited (Registry κ) := ⟨empty⟩

/-- The checker of a type. -/
def get? (registry : Registry κ) (name : String) : Option κ := registry.entries.lookup name

/-- Whether a type is registered. -/
def has (registry : Registry κ) (name : String) : Bool := (registry.get? name).isSome

/-- The checker of a type that must be registered. -/
def get (registry : Registry κ) (name : String) : Except Fault κ :=
  match registry.get? name with
  | some checker => .ok checker
  | none => .error (.unknownType name)

/-- The names of the types, in ascending order. -/
def names (registry : Registry κ) : List String := registry.entries.map (·.1)

/-- Every key that an expression can hold: the keywords, then the names of the types. -/
def validKeys (registry : Registry κ) : List String := Keyword.reserved ++ registry.names

/-- The names of the types, for debugging. -/
def debugText (registry : Registry κ) : String :=
  "PermissionCheckerRegistry \x7b types: " ++ Literal.quoteEach registry.names ++ " \x7d"

/-- The number of types. -/
def size (registry : Registry κ) : Nat := registry.entries.length

/-- The registry without types has no checkers. -/
@[simp] theorem get?_empty (name : String) : (empty : Registry κ).get? name = none := rfl

/-- The names are in strictly ascending order. -/
theorem names_sorted (registry : Registry κ) : registry.names.Pairwise (· < ·) :=
  List.pairwise_map.2 registry.sorted

/-- The names are those of the types that are registered. -/
theorem mem_names (registry : Registry κ) (name : String) :
    name ∈ registry.names ↔ registry.has name = true := by
  rw [has, get?, names, List.mem_map, Option.isSome_iff_ne_none, Ne, List.lookup_eq_none_iff]
  constructor
  · rintro ⟨entry, hentry, rfl⟩ habsent
    simpa using habsent entry hentry
  · intro hpresent
    by_cases hfound : ∃ entry ∈ registry.entries, entry.1 = name
    · exact hfound
    · refine absurd (fun entry hentry => ?_) hpresent
      have hne : name ≠ entry.1 := fun hsame => hfound ⟨entry, hentry, hsame.symm⟩
      simpa using hne

/-- A name that is not found stands in no entry. -/
theorem ne_of_get?_eq_none {registry : Registry κ} {name : String}
    (habsent : registry.get? name = none) : ∀ entry ∈ registry.entries, entry.1 ≠ name := by
  intro entry hentry hsame
  rw [get?, List.lookup_eq_none_iff] at habsent
  have hne := habsent entry hentry
  simp [hsame] at hne

/-! ## One type more, one type less -/

/-- The registry with one more type, whose name is valid and not taken. -/
def insert (registry : Registry κ) (name : String) (checker : κ) (hvalid : nameFault? name = none)
    (hfree : registry.get? name = none) : Registry κ where
  entries := insertEntry name checker registry.entries
  sorted := sorted_insertEntry registry.sorted (ne_of_get?_eq_none hfree)
  named := by
    intro entry hentry
    rcases mem_insertEntry.1 hentry with rfl | hentry
    · exact hvalid
    · exact registry.named entry hentry

/-- The registry without a type, whether or not there was one of this name. -/
def erase (registry : Registry κ) (name : String) : Registry κ where
  entries := registry.entries.filter (·.1 != name)
  sorted := registry.sorted.filter _
  named := fun entry hentry => registry.named entry (List.mem_filter.1 hentry).1

/-- Without a type that was not there a registry is the same. -/
theorem erase_of_get?_eq_none {registry : Registry κ} {name : String}
    (habsent : registry.get? name = none) : registry.erase name = registry := by
  have hentries : registry.entries.filter (·.1 != name) = registry.entries := by
    rw [List.filter_eq_self]
    intro entry hentry
    exact bne_iff_ne.2 (ne_of_get?_eq_none habsent entry hentry)
  obtain ⟨entries, sorted, named⟩ := registry
  simp only [erase, hentries]

/-- The new type has its checker. -/
theorem get?_insert_self {registry : Registry κ} {name : String} {checker : κ}
    (hvalid : nameFault? name = none) (hfree : registry.get? name = none) :
    (registry.insert name checker hvalid hfree).get? name = some checker :=
  lookup_insertEntry_self (ne_of_get?_eq_none hfree)

/-- All other types keep their checkers. -/
theorem get?_insert_of_ne {registry : Registry κ} {name other : String} {checker : κ}
    (hvalid : nameFault? name = none) (hfree : registry.get? name = none) (hne : other ≠ name) :
    (registry.insert name checker hvalid hfree).get? other = registry.get? other :=
  lookup_insertEntry_of_ne hne checker registry.entries

/-! ## Changes in place -/

/-- Registers a type under a name that is valid and not taken. -/
def add (name : String) (checker : κ) : Mutation (Registry κ) Fault Unit := do
  match hvalid : nameFault? name with
  | some fault => throw fault
  | none =>
    let registry ← MonadState.get
    match hfree : registry.get? name with
    | some _ => throw (.typeTaken name)
    | none => set (registry.insert name checker hvalid hfree)

/-- Registers types one after the other up to the first fault; those before it stay registered. -/
def addEach (types : List (String × κ)) : Mutation (Registry κ) Fault Unit :=
  forM types fun entry => add entry.1 entry.2

/-- Replaces all types by others.  These are registered in a registry of their own, which takes the
place of the old one when it is complete. -/
def replaceAll (types : List (String × κ)) : Mutation (Registry κ) Fault Unit := do
  match (addEach types).run empty with
  | .ok _ replacement => set replacement
  | .error fault _ => throw fault

/-- Takes a type out and gives its checker, and fails if there was none. -/
def remove (name : String) : Mutation (Registry κ) Fault κ := do
  let registry ← MonadState.get
  set (registry.erase name)
  match registry.get? name with
  | some checker => return checker
  | none => throw (.unknownType name)

/-- Takes all types out. -/
def clear : Mutation (Registry κ) Fault Unit := set (empty : Registry κ)

/-- A type is registered exactly if its name is valid and not taken. -/
theorem add_eq_ok_iff {registry next : Registry κ} {name : String} {checker : κ} :
    (add name checker).run registry = .ok () next ↔
      ∃ hvalid hfree, registry.insert name checker hvalid hfree = next := by
  unfold add
  split
  · rename_i fault hname
    simp [hname]
  · rename_i hname
    rw [EStateM.run_bind, EStateM.run_get]
    dsimp only
    split
    · rename_i found htaken
      simp [htaken]
    · rename_i hfree
      simp [hname, hfree]

/-- A type can be registered exactly if its name is valid and not taken. -/
theorem exists_add_iff {registry : Registry κ} {name : String} {checker : κ} :
    (∃ next, (add name checker).run registry = .ok () next) ↔
      nameFault? name = none ∧ registry.has name = false := by
  rw [has, Option.isSome_eq_false_iff, Option.isNone_iff_eq_none]
  constructor
  · rintro ⟨next, hadd⟩
    obtain ⟨hvalid, hfree, -⟩ := add_eq_ok_iff.1 hadd
    exact ⟨hvalid, hfree⟩
  · rintro ⟨hvalid, hfree⟩
    exact ⟨_, add_eq_ok_iff.2 ⟨hvalid, hfree, rfl⟩⟩

/-- A registered type has its checker. -/
theorem get?_add_self {registry next : Registry κ} {name : String} {checker : κ}
    (hadd : (add name checker).run registry = .ok () next) : next.get? name = some checker := by
  obtain ⟨hvalid, hfree, rfl⟩ := add_eq_ok_iff.1 hadd
  exact get?_insert_self hvalid hfree

/-- All other types keep their checkers. -/
theorem get?_add_of_ne {registry next : Registry κ} {name other : String} {checker : κ}
    (hadd : (add name checker).run registry = .ok () next) (hne : other ≠ name) :
    next.get? other = registry.get? other := by
  obtain ⟨hvalid, hfree, rfl⟩ := add_eq_ok_iff.1 hadd
  exact get?_insert_of_ne hvalid hfree hne

end Registry

end Clearance
