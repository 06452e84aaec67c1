import Clearance.Proofs.Reader

/-!
# The grammar of expressions

Which values are expressions, said of every place of a value by itself: of what stands there and of
the keys above it.  The reader accepts exactly these values, and the empty collections.
-/

namespace Clearance

variable {κ : Type}

/-! ## Places -/

/-- What a collection holds: its items, each under nothing, or the values of its entries, each under
its key. -/
def Json.members : Json → List (Option String × Json)
  | array items => items.map fun item => (none, item)
  | object entries => entries.map fun entry => (some entry.1, entry.2)
  | _ => []

/-- The members of an array are its items, under nothing. -/
theorem Json.forall_mem_members_array {P : Option String → Json → Prop} {items : List Json} :
    (∀ step part, (step, part) ∈ (array items).members → P step part) ↔
      ∀ item ∈ items, P none item := by
  constructor
  · intro h item hitem
    exact h none item (List.mem_map.2 ⟨item, hitem, rfl⟩)
  · intro h step part hpart
    obtain ⟨item, hitem, heq⟩ := List.mem_map.1 hpart
    cases heq
    exact h part hitem

/-- The members of an object are the values of its entries, under their keys. -/
theorem Json.forall_mem_members_object {P : Option String → Json → Prop}
    {entries : List (String × Json)} :
    (∀ step part, (step, part) ∈ (object entries).members → P step part) ↔
      ∀ keyed ∈ entries, P (some keyed.1) keyed.2 := by
  constructor
  · intro h keyed hkeyed
    exact h (some keyed.1) keyed.2 (List.mem_map.2 ⟨keyed, hkeyed, rfl⟩)
  · intro h step part hpart
    obtain ⟨keyed, hkeyed, heq⟩ := List.mem_map.1 hpart
    cases heq
    exact h keyed hkeyed

/-- The steps from a place up to the root: the key of an entry, or nothing for an item. -/
abbrev Path : Type := List (Option String)

/-- What stands at the places of a value, each place given by its path, innermost step first. -/
inductive At (root : Json) : Path → Json → Prop
  | root : At root [] root
  | member {path : Path} {step : Option String} {value part : Json} (h : At root path value)
      (hpart : (step, part) ∈ value.members) : At root (step :: path) part

/-- A place of a part is a place of the whole. -/
theorem At.append {root part value : Json} {outer inner : Path} (hpart : At root outer part)
    (hvalue : At part inner value) : At root (inner ++ outer) value := by
  induction hvalue with
  | root => exact hpart
  | member _ hmember ih => exact .member ih hmember

/-- The places of a value are its root and the places of its members. -/
theorem at_iff {root value : Json} {path : Path} :
    At root path value ↔ path = [] ∧ value = root ∨
      ∃ step part, (step, part) ∈ root.members ∧
        ∃ inner, At part inner value ∧ path = inner ++ [step] := by
  constructor
  · intro h
    induction h with
    | root => exact Or.inl ⟨rfl, rfl⟩
    | member _ hmember ih =>
        rcases ih with ⟨rfl, rfl⟩ | ⟨step, part, hpart, inner, hinner, rfl⟩
        · exact Or.inr ⟨_, _, hmember, [], .root, rfl⟩
        · exact Or.inr ⟨step, part, hpart, _, .member hinner hmember, rfl⟩
  · rintro (⟨rfl, rfl⟩ | ⟨step, part, hpart, inner, hinner, rfl⟩)
    · exact .root
    · exact (At.member .root hpart).append hinner

/-! ## The grammar -/

/-- A place lies under a type if one of the keys above it is a type key. -/
def UnderType (path : Path) : Prop := ∃ key, some key ∈ path ∧ IsTypeKey key

/-- How many inputs a value gives: a collection one for each member, and any other value one. -/
def Json.width (value : Json) : Nat := if value.isCollection then value.members.length else 1

/-- The values that a gate takes. -/
def Gate.Takes : Gate → Json → Prop
  | .and, value | .nand, value | .or, value | .nor, value =>
    value.isCollection = true ∧ 1 ≤ value.width
  | .xor, value => value.isCollection = true ∧ 2 ≤ value.width
  | .not, value => value.isCollection = true → value.width = 1

/-- The values that are expressions, given the types that are registered. -/
structure Grammar (registry : Registry κ) (root : Json) : Prop where
  /-- Neither null nor a number stands anywhere. -/
  kind : ∀ path value, At root path value → value.kind ≠ .null ∧ value.kind ≠ .number
  /-- No more collections than the limit are nested in each other. -/
  nesting : root.nesting ≤ nestingLimit
  /-- No key is the bypass restriction or a constant. -/
  key : ∀ path key value, At root (some key :: path) value →
    sameWord key Keyword.noBypass = false ∧ sameWord key Keyword.trueWord = false ∧
      sameWord key Keyword.falseWord = false
  /-- Every type key is registered as it is spelt, and lies under no other. -/
  type : ∀ path key value, At root (some key :: path) value → IsTypeKey key →
    registry.has key = true ∧ ¬ UnderType path
  /-- Every boolean lies outside all types. -/
  bool : ∀ path b, At root path (.bool b) → ¬ UnderType path
  /-- No text is empty; a word for a constant lies outside all types, any other text under one. -/
  string : ∀ path s, At root path (.string s) → s ≠ "" ∧
    (UnderType path ↔ sameWord s Keyword.trueWord = false ∧ sameWord s Keyword.falseWord = false)
  /-- The value of a gate is one that the gate takes. -/
  gate : ∀ path key value g, At root (some key :: path) value →
    sameWord key (Gate.keyword g) = true → g.Takes value
  /-- A collection that is not the value of a gate is not empty. -/
  collection : ∀ path value, At root path value →
    (∀ key outer g, path = some key :: outer → sameWord key (Gate.keyword g) = false) →
    value.isCollection = true → 1 ≤ value.width

/-! ## Rules for single places -/

/-- What the grammar asks of a value, given the path to it. -/
def ValueRule (path : Path) : Json → Prop
  | .null | .number _ => False
  | .bool _ => ¬ UnderType path
  | .string s => s ≠ "" ∧
    (UnderType path ↔ sameWord s Keyword.trueWord = false ∧ sameWord s Keyword.falseWord = false)
  | .array _ | .object _ => True

/-- What the grammar asks of a value as the root, the item or the entry that the path leads to. -/
def StepRule (registry : Registry κ) : Path → Json → Prop
  | some key :: outer, value =>
    match Key.ofText key with
    | .position => 1 ≤ value.width
    | .noBypass | .constant _ => False
    | .gate g => g.Takes value
    | .type name => registry.has name = true ∧ ¬ UnderType outer ∧ 1 ≤ value.width
  | _, value => 1 ≤ value.width

/-- The rules for all places of a value that stands at `above`, its own step apart. -/
def Obeys (registry : Registry κ) (above : Path) (value : Json) : Prop :=
  ∀ path sub, At value path sub →
    ValueRule (path ++ above) sub ∧ (path ≠ [] → StepRule registry (path ++ above) sub)

/-- A value obeys the rules if its own rule holds and all its members obey theirs. -/
theorem obeys_iff {registry : Registry κ} {above : Path} {value : Json} :
    Obeys registry above value ↔ ValueRule above value ∧
      ∀ step part, (step, part) ∈ value.members →
        StepRule registry (step :: above) part ∧ Obeys registry (step :: above) part := by
  constructor
  · intro h
    refine ⟨(h [] value .root).1, ?_⟩
    intro step part hpart
    have hinner : ∀ path sub, At part path sub → ValueRule (path ++ step :: above) sub ∧
        StepRule registry (path ++ step :: above) sub := by
      intro path sub hsub
      have hrules := h (path ++ [step]) sub (at_iff.2 (Or.inr ⟨step, part, hpart, path, hsub, rfl⟩))
      rw [List.append_assoc, List.singleton_append] at hrules
      exact ⟨hrules.1, hrules.2 (by simp)⟩
    constructor
    · exact (hinner [] part .root).2
    · intro path sub hsub
      exact ⟨(hinner path sub hsub).1, fun _ => (hinner path sub hsub).2⟩
  · rintro ⟨hvalue, hmembers⟩ path sub hsub
    rcases at_iff.1 hsub with ⟨rfl, rfl⟩ | ⟨step, part, hpart, inner, hinner, rfl⟩
    · exact ⟨hvalue, by simp⟩
    · obtain ⟨hstep, hobeys⟩ := hmembers step part hpart
      rw [List.append_assoc, List.singleton_append]
      refine ⟨(hobeys inner sub hinner).1, fun _ => ?_⟩
      -- the step into the member itself is not one of the steps inside it
      by_cases hnil : inner = []
      · subst hnil
        cases hinner
        exact hstep
      · exact (hobeys inner sub hinner).2 hnil

/-- An array obeys the rules if its items do. -/
theorem obeys_array_iff {registry : Registry κ} {above : Path} {items : List Json} :
    Obeys registry above (.array items) ↔
      ∀ item ∈ items, StepRule registry (none :: above) item ∧
        Obeys registry (none :: above) item := by
  rw [obeys_iff, ValueRule, true_and, Json.forall_mem_members_array]

/-- An object obeys the rules if the values of its entries do. -/
theorem obeys_object_iff {registry : Registry κ} {above : Path} {entries : List (String × Json)} :
    Obeys registry above (.object entries) ↔
      ∀ keyed ∈ entries, StepRule registry (some keyed.1 :: above) keyed.2 ∧
        Obeys registry (some keyed.1 :: above) keyed.2 := by
  rw [obeys_iff, ValueRule, true_and, Json.forall_mem_members_object]

/-- Items lie under the types that their array lies under. -/
@[simp] theorem underType_item {path : Path} : UnderType (none :: path) ↔ UnderType path := by
  simp [UnderType]

/-- A value lies under a type if its key is one or the object lies under one. -/
theorem underType_entry {key : String} {path : Path} :
    UnderType (some key :: path) ↔ IsTypeKey key ∨ UnderType path := by
  constructor
  · rintro ⟨name, hname, htype⟩
    rcases List.mem_cons.1 hname with hkey | hpath
    · cases hkey
      exact Or.inl htype
    · exact Or.inr ⟨name, hpath, htype⟩
  · rintro (htype | ⟨name, hpath, htype⟩)
    · exact ⟨key, by simp, htype⟩
    · exact ⟨name, by simp [hpath], htype⟩

/-- A key that is no type key leaves its value under the same types. -/
theorem underType_plain {key : String} {path : Path} (hkey : ¬ IsTypeKey key) :
    UnderType (some key :: path) ↔ UnderType path := by
  rw [underType_entry, or_iff_right hkey]

/-! ## Numbers of siblings -/

/-- A scalar gives one input. -/
theorem Json.width_scalar {value : Json} (hvalue : value.isCollection = false) :
    value.width = 1 := by
  rw [width, if_neg (by simp [hvalue])]

/-- An array gives an input for each item. -/
@[simp] theorem Json.width_array (items : List Json) : (array items).width = items.length :=
  List.length_map _

/-- An object gives an input for each entry. -/
@[simp] theorem Json.width_object (entries : List (String × Json)) :
    (object entries).width = entries.length :=
  List.length_map _

/-- Only an empty collection gives no input. -/
theorem Json.width_eq_zero_iff {value : Json} :
    value.width = 0 ↔ value = .array [] ∨ value = .object [] := by
  cases value with
  | array items => simp
  | object entries => simp
  | null | bool b | number n | string s => simp [width, isCollection]

/-- The values that a gate takes are those that the reader lets stand under it and whose width it
admits. -/
theorem Gate.takes_iff {g : Gate} {value : Json} :
    g.Takes value ↔ (g.takesScalar || value.isCollection) = true ∧ g.admits value.width = true := by
  rw [admits_iff]
  cases hvalue : value.isCollection with
  | true =>
      cases g with
      | not =>
          simp [Takes, takesScalar, minInputs, maxInputs, hvalue]
          omega
      | and | nand | or | nor | xor => simp [Takes, takesScalar, minInputs, maxInputs, hvalue]
  | false =>
      cases g <;>
        simp [Takes, takesScalar, minInputs, maxInputs, hvalue, Json.width_scalar hvalue]

namespace Expression

/-- A value has as many siblings as its width says. -/
theorem length_of_siblings {registry : Registry κ} {scope : Scope κ} {value : Json}
    {trees : List (Tree κ)} (h : Siblings registry scope value trees) :
    trees.length = value.width := by
  cases value with
  | null => exact absurd h not_siblings_null
  | number n => exact absurd h not_siblings_number
  | bool b =>
      rw [(siblings_bool_iff.1 h).2]
      rfl
  | string s =>
      obtain ⟨tree, -, rfl⟩ := siblings_string_iff.1 h
      rfl
  | array items =>
      rw [← (siblings_array_iff.1 h).length_eq, Json.width_array]
  | object entries =>
      rw [← (siblings_object_iff.1 h).length_eq, Json.width_object]

/-- The siblings of a value can be joined by a gate if there are some and the gate admits the width
of the value. -/
theorem exists_join_iff {registry : Registry κ} {scope : Scope κ} {value : Json} {g : Gate} :
    (∃ tree inputs, Siblings registry scope value inputs ∧ Tree.join g inputs = .ok tree) ↔
      (∃ inputs, Siblings registry scope value inputs) ∧ g.admits value.width = true := by
  constructor
  · rintro ⟨tree, inputs, hinputs, hjoin⟩
    rw [← length_of_siblings hinputs]
    exact ⟨⟨inputs, hinputs⟩, (Tree.join_eq_ok_iff.1 hjoin).1⟩
  · rintro ⟨⟨inputs, hinputs⟩, hadmits⟩
    rw [← length_of_siblings hinputs] at hadmits
    exact ⟨_, inputs, hinputs, Tree.join_eq_ok_iff.2 ⟨hadmits, rfl⟩⟩

/-- A value stands for a tree if it has siblings and is not empty. -/
theorem exists_stands_iff {registry : Registry κ} {scope : Scope κ} {value : Json} :
    (∃ tree, Stands registry scope value tree) ↔
      (∃ inputs, Siblings registry scope value inputs) ∧ 1 ≤ value.width := by
  rw [← Gate.admits_or_iff]
  exact exists_join_iff

/-! ## The reader follows the rules -/

/-- Which texts can be read. -/
theorem exists_textRead_iff {scope : Scope κ} {s : String} :
    (∃ tree, TextRead scope s tree) ↔ s ≠ "" ∧ (scope.isSome = true ↔
      sameWord s Keyword.trueWord = false ∧ sameWord s Keyword.falseWord = false) := by
  rw [← constantOfWord?_eq_none_iff]
  constructor
  · rintro ⟨tree, ⟨hword, rfl⟩ | ⟨htext, rfl⟩⟩
    · have hs := isEmpty_eq_false_of_constantOfWord? hword
      refine ⟨?_, by simp [hword]⟩
      rintro rfl
      simp at hs
    · exact ⟨htext.1, by simp [constantOfWord?_eq_none_iff.2 htext.2]⟩
  · rintro ⟨hs, hword⟩
    cases scope with
    | none =>
        cases hs : constantOfWord? s with
        | none => simp [hs] at hword
        | some b => exact ⟨_, .constant hs rfl⟩
    | some type => exact ⟨_, .permission ⟨hs, constantOfWord?_eq_none_iff.1 (hword.1 rfl)⟩ rfl⟩

/-- Which readings a key has, by its class. -/
theorem exists_keyRead_iff {registry : Registry κ} {scope : Scope κ} {key : String} {value : Json}
    {P : Reading κ → Prop} :
    (∃ reading, KeyRead registry scope key value reading ∧ P reading) ↔
      match Key.ofText key with
      | .position => P ⟨.or, scope⟩
      | .noBypass | .constant _ => False
      | .gate g => (g.takesScalar || value.isCollection) = true ∧ P ⟨g, scope⟩
      | .type _ => scope = none ∧
          ∃ checker, registry.get? key = some checker ∧ P ⟨.or, some (key, checker)⟩ := by
  constructor
  · rintro ⟨reading, hkey | ⟨hkey, hvalue⟩ | ⟨hkey, hscope, hget⟩, h⟩
    · rw [hkey]
      exact h
    · rw [hkey]
      exact ⟨hvalue, h⟩
    · rw [hkey]
      exact ⟨hscope, _, hget, h⟩
  · intro h
    cases hkey : Key.ofText key with
    | position =>
        rw [hkey] at h
        exact ⟨_, .position hkey, h⟩
    | noBypass =>
        rw [hkey] at h
        exact h.elim
    | constant b =>
        rw [hkey] at h
        exact h.elim
    | gate g =>
        rw [hkey] at h
        exact ⟨_, .gate hkey h.1, h.2⟩
    | type name =>
        have hname := Key.eq_of_ofText_eq_type hkey
        subst hname
        rw [hkey] at h
        obtain ⟨hscope, checker, hget, h⟩ := h
        exact ⟨_, .type hkey hscope hget, h⟩

/-- An entry stands for a tree if its key can be read and the gate of the key admits the width of
the value. -/
theorem exists_entryStands_iff {registry : Registry κ} {scope : Scope κ} {keyed : String × Json} :
    (∃ tree, EntryStands registry scope keyed tree) ↔
      ∃ reading, KeyRead registry scope keyed.1 keyed.2 reading ∧
        (∃ inputs, Siblings registry reading.scope keyed.2 inputs) ∧
          reading.gate.admits keyed.2.width = true := by
  simp only [← exists_join_iff]
  constructor
  · rintro ⟨tree, reading, hkey, inputs, hinputs, hjoin⟩
    exact ⟨reading, hkey, tree, inputs, hinputs, hjoin⟩
  · rintro ⟨reading, hkey, tree, inputs, hinputs, hjoin⟩
    exact ⟨tree, reading, hkey, inputs, hinputs, hjoin⟩

/-- An entry stands for a tree if its value obeys the rules, given that the siblings of the value
do. -/
theorem entry_obeys {registry : Registry κ} {scope : Scope κ} {above : Path} {keyed : String × Json}
    (hscope : scope.isSome = true ↔ UnderType above)
    (ih : ∀ {scope : Scope κ} {above : Path}, (scope.isSome = true ↔ UnderType above) →
      ((∃ inputs, Siblings registry scope keyed.2 inputs) ↔ Obeys registry above keyed.2)) :
    (∃ tree, EntryStands registry scope keyed tree) ↔
      StepRule registry (some keyed.1 :: above) keyed.2 ∧
        Obeys registry (some keyed.1 :: above) keyed.2 := by
  obtain ⟨key, value⟩ := keyed
  -- only a type key changes the types that the value lies under
  have hsame : (∀ name, Key.ofText key ≠ .type name) →
      (scope.isSome = true ↔ UnderType (some key :: above)) := by
    intro hkey
    rw [hscope, underType_plain]
    exact fun htype => hkey key (ofText_eq_type_iff.2 ⟨rfl, htype⟩)
  rw [exists_entryStands_iff, exists_keyRead_iff]
  cases hkey : Key.ofText key with
  | position =>
      have hvalue := ih (hsame (by simp [hkey]))
      simp only [StepRule, hkey, hvalue, Gate.admits_or_iff]
      exact and_comm
  | noBypass => simp [StepRule, hkey]
  | constant b => simp [StepRule, hkey]
  | gate g =>
      have hvalue := ih (hsame (by simp [hkey]))
      simp only [StepRule, hkey, hvalue, Gate.takes_iff]
      rw [and_left_comm, and_comm]
  | type name =>
      obtain ⟨rfl, htype⟩ := ofText_eq_type_iff.1 hkey
      have hunder : UnderType (some key :: above) := underType_entry.2 (Or.inl htype)
      have hvalue : ∀ checker, (∃ inputs, Siblings registry (some (key, checker)) value inputs) ↔
          Obeys registry (some key :: above) value :=
        fun checker => ih (by simp [hunder])
      have houtside : scope = none ↔ ¬ UnderType above := by
        rw [← hscope, Option.not_isSome_iff_eq_none]
      simp only [StepRule, hkey, hvalue, Gate.admits_or_iff, houtside, Registry.has,
        Option.isSome_iff_exists]
      constructor
      · rintro ⟨hout, checker, hget, hobeys, hwidth⟩
        exact ⟨⟨⟨checker, hget⟩, hout, hwidth⟩, hobeys⟩
      · rintro ⟨⟨⟨checker, hget⟩, hout, hwidth⟩, hobeys⟩
        exact ⟨hout, checker, hget, hobeys, hwidth⟩

/-- A value has siblings exactly if it obeys the rules. -/
theorem exists_siblings_iff {registry : Registry κ} {scope : Scope κ} {above : Path} {value : Json}
    (hscope : scope.isSome = true ↔ UnderType above) :
    (∃ inputs, Siblings registry scope value inputs) ↔ Obeys registry above value := by
  induction value using Json.induction generalizing scope above with
  | null =>
      rw [obeys_iff, ValueRule]
      simp
  | number n =>
      rw [obeys_iff, ValueRule]
      simp
  | bool b =>
      rw [obeys_iff, ValueRule, ← hscope]
      simp [siblings_bool_iff, Json.members]
  | string s =>
      rw [obeys_iff, ValueRule, ← hscope, ← exists_textRead_iff]
      simp [siblings_string_iff, Json.members]
  | array items ih =>
      -- an item keeps the scope, and its step adds no key to the path
      rw [obeys_array_iff]
      simp only [siblings_array_iff, exists_forall₂_iff]
      refine forall₂_congr fun item hitem => ?_
      rw [exists_stands_iff, ih item hitem (hscope.trans underType_item.symm), and_comm]
      rfl
  | object entries ih =>
      rw [obeys_object_iff]
      simp only [siblings_object_iff, exists_forall₂_iff]
      exact forall₂_congr fun keyed hkeyed =>
        entry_obeys hscope fun hscope => ih keyed hkeyed hscope

end Expression

/-! ## The reader accepts exactly its grammar -/

/-- The rule for the value of an entry, told from the words that its key can be. -/
theorem stepRule_entry_iff {registry : Registry κ} {key : String} {outer : Path} {value : Json} :
    StepRule registry (some key :: outer) value ↔
      (sameWord key Keyword.noBypass = false ∧ sameWord key Keyword.trueWord = false ∧
        sameWord key Keyword.falseWord = false) ∧
      (IsTypeKey key → registry.has key = true ∧ ¬ UnderType outer) ∧
      (∀ g, sameWord key (Gate.keyword g) = true → g.Takes value) ∧
      ((∀ g, sameWord key (Gate.keyword g) = false) → 1 ≤ value.width) := by
  have hbypass : sameWord key Keyword.noBypass = false ↔ Key.ofText key ≠ .noBypass := by
    rw [Ne, ofText_eq_noBypass_iff, Bool.not_eq_true]
  have hwords : (sameWord key Keyword.trueWord = false ∧ sameWord key Keyword.falseWord = false) ↔
      ¬ ∃ b, Key.ofText key = .constant b := by
    rw [ofText_eq_constant_iff, not_or, Bool.not_eq_true, Bool.not_eq_true]
  have hgate : ∀ g : Gate, sameWord key g.keyword = false ↔ Key.ofText key ≠ .gate g := by
    intro g
    rw [Ne, ofText_eq_gate_iff, Bool.not_eq_true]
  have htype : IsTypeKey key ↔ Key.ofText key = .type key := by
    rw [ofText_eq_type_iff]
    simp
  simp only [hbypass, hwords, hgate, htype, ← ofText_eq_gate_iff]
  cases hkey : Key.ofText key with
  | position => simp [StepRule, hkey]
  | noBypass => simp [StepRule, hkey]
  | constant b => simp [StepRule, hkey]
  | gate g => simp [StepRule, hkey]
  | type name =>
      have hname := Key.eq_of_ofText_eq_type hkey
      subst hname
      simp [StepRule, hkey, and_assoc]

/-- A whole value that is not empty obeys the rules if both rules hold at every place. -/
theorem obeys_root_iff {registry : Registry κ} {root : Json} :
    Obeys registry [] root ∧ 1 ≤ root.width ↔
      ∀ path value, At root path value → ValueRule path value ∧ StepRule registry path value := by
  simp only [Obeys, List.append_nil]
  constructor
  · rintro ⟨hobeys, hroot⟩ path value hvalue
    refine ⟨(hobeys path value hvalue).1, ?_⟩
    by_cases hpath : path = []
    · subst hpath
      cases hvalue
      exact hroot
    · exact (hobeys path value hvalue).2 hpath
  · intro h
    refine ⟨?_, (h [] root .root).2⟩
    intro path value hvalue
    exact ⟨(h path value hvalue).1, fun _ => (h path value hvalue).2⟩

/-- A value is not empty if it is no empty collection. -/
theorem one_le_width_iff {value : Json} :
    1 ≤ value.width ↔ (value.isCollection = true → 1 ≤ value.width) := by
  cases hvalue : value.isCollection with
  | true => simp
  | false => simp [Json.width_scalar hvalue]

/-- The grammar is the rules for all places, the root among them, with the limit on nesting. -/
theorem grammar_iff {registry : Registry κ} {root : Json} :
    Grammar registry root ↔ root.nesting ≤ nestingLimit ∧
      ∀ path value, At root path value → ValueRule path value ∧ StepRule registry path value := by
  constructor
  · intro h
    refine ⟨h.nesting, ?_⟩
    intro path value hvalue
    constructor
    · cases value with
      | null => exact (h.kind path .null hvalue).1 rfl
      | number n => exact (h.kind path (.number n) hvalue).2 rfl
      | bool b => exact h.bool path b hvalue
      | string s => exact h.string path s hvalue
      | array items => trivial
      | object entries => trivial
    · have hwidth := h.collection path value hvalue
      rcases path with - | ⟨- | key, outer⟩
      · exact one_le_width_iff.2 (hwidth (by simp))
      · exact one_le_width_iff.2 (hwidth (by simp))
      · refine stepRule_entry_iff.2 ⟨h.key outer key value hvalue, h.type outer key value hvalue,
          fun g => h.gate outer key value g hvalue, fun hplain => ?_⟩
        refine one_le_width_iff.2 (hwidth ?_)
        intro key' outer' g heq
        cases heq
        exact hplain g
  · rintro ⟨hnesting, hrules⟩
    have hentry := fun path key value hvalue =>
      stepRule_entry_iff.1 (hrules (some key :: path) value hvalue).2
    constructor
    · intro path value hvalue
      have hrule := (hrules path value hvalue).1
      cases value <;> simp_all [ValueRule, Json.kind]
    · exact hnesting
    · exact fun path key value hvalue => (hentry path key value hvalue).1
    · exact fun path key value hvalue => (hentry path key value hvalue).2.1
    · exact fun path b hvalue => (hrules path (.bool b) hvalue).1
    · exact fun path s hvalue => (hrules path (.string s) hvalue).1
    · exact fun path key value g hvalue => (hentry path key value hvalue).2.2.1 g
    · intro path value hvalue hplain _
      have hstep := (hrules path value hvalue).2
      rcases path with - | ⟨- | key, outer⟩
      · exact hstep
      · exact hstep
      · exact (hentry outer key value hvalue).2.2.2 fun g => hplain key outer g rfl

/-- The reader accepts the empty collections and the values of its grammar, and nothing else. -/
theorem read_accepts_iff_grammar (registry : Registry κ) (raw : Json) :
    (∃ tree, Expression.read registry raw = .ok tree) ↔
      raw = .array [] ∨ raw = .object [] ∨ Grammar registry raw := by
  have hunder : (none : Expression.Scope κ).isSome = true ↔ UnderType [] := by simp [UnderType]
  have hstands : (∃ tree, Expression.Stands registry none raw tree) ↔
      Obeys registry [] raw ∧ 1 ≤ raw.width := by
    rw [Expression.exists_stands_iff, Expression.exists_siblings_iff hunder]
  rw [grammar_iff, ← obeys_root_iff, ← hstands, ← or_assoc]
  simp only [Expression.read_eq_ok_iff, exists_or, exists_and_left, exists_eq, and_true]

/-- The reader accepts the empty collections, and values that obey the rules and nest no deeper than
the limit. -/
theorem Expression.exists_read_iff_obeys {registry : Registry κ} {raw : Json} :
    (∃ tree, read registry raw = .ok tree) ↔ (raw = .array [] ∨ raw = .object []) ∨
      raw.nesting ≤ nestingLimit ∧ Obeys registry [] raw ∧ 1 ≤ raw.width := by
  have hunder : (none : Scope κ).isSome = true ↔ UnderType [] := by simp [UnderType]
  rw [← exists_siblings_iff hunder, ← exists_stands_iff]
  simp only [read_eq_ok_iff, exists_or, exists_and_left, exists_eq, and_true]

end Clearance
