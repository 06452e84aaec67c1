import Clearance.Proofs.Gates
import Clearance.Proofs.Induction
import Clearance.Proofs.Keys

/-!
# What the reader accepts

`Siblings` says what a value is read as when nothing but its own nesting bounds the depth.  Reading
with a given room succeeds exactly if the value nests no deeper than that room and is read so
(`siblings_eq_ok_iff`); the room can then be left out of every statement about accepted expressions.
-/

namespace Clearance

variable {κ : Type}

/-! ## Gates over siblings -/

/-- The tree that joins inputs whose number the gate admits. -/
def Tree.joined : Gate → List (Tree κ) → Tree κ
  | .and, [only] => only
  | .or, [only] => only
  | g, inputs => .gate g inputs

/-- Joining checks the number of the inputs and nothing else. -/
theorem Tree.join_eq_map (g : Gate) (inputs : List (Tree κ)) :
    Tree.join g inputs = (g.checkCount inputs.length).map fun _ => Tree.joined g inputs := by
  unfold Tree.join
  cases g.checkCount inputs.length with
  | error fault => rfl
  | ok _ =>
      show (match g, inputs with
        | .and, [only] | .or, [only] => pure only
        | g, inputs => pure (.gate g inputs) : Except Fault (Tree κ)) = _
      unfold Tree.joined
      split <;> rfl

/-- Joining succeeds exactly with an admitted number of inputs. -/
theorem Tree.join_eq_ok_iff {g : Gate} {inputs : List (Tree κ)} {tree : Tree κ} :
    Tree.join g inputs = .ok tree ↔
      g.admits inputs.length = true ∧ Tree.joined g inputs = tree := by
  rw [Tree.join_eq_map, ← Gate.checkCount_eq_ok_iff]
  cases g.checkCount inputs.length with
  | error fault => simp [Except.map]
  | ok _ => simp [Except.map]

/-- Joining fails exactly for the number of inputs. -/
theorem Tree.join_eq_error_iff {g : Gate} {inputs : List (Tree κ)} {fault : Fault} :
    Tree.join g inputs = .error fault ↔ g.checkCount inputs.length = .error fault := by
  rw [Tree.join_eq_map]
  cases g.checkCount inputs.length <;> simp [Except.map]

/-! ## Texts -/

/-- A text that can be a permission: it is not empty and no word for a constant. -/
def IsPermissionText (s : String) : Prop :=
  s ≠ "" ∧ sameWord s Keyword.trueWord = false ∧ sameWord s Keyword.falseWord = false

instance (s : String) : Decidable (IsPermissionText s) :=
  inferInstanceAs (Decidable (s ≠ "" ∧ _ = false ∧ _ = false))

/-- A text can be a permission if it is not empty and stands for no constant. -/
theorem isPermissionText_iff {s : String} :
    IsPermissionText s ↔ s.toList.isEmpty = false ∧ constantOfWord? s = none := by
  have hempty : s ≠ "" ↔ s.toList.isEmpty = false := by
    rw [Ne, ← String.toList_inj, String.toList_empty, List.isEmpty_eq_false_iff]
  rw [IsPermissionText, hempty, constantOfWord?_eq_none_iff]

/-- A word for a constant is not empty. -/
theorem isEmpty_eq_false_of_constantOfWord? {s : String} {b : Bool}
    (h : constantOfWord? s = some b) : s.toList.isEmpty = false := by
  by_contra hs
  rw [Bool.not_eq_false, List.isEmpty_iff] at hs
  have hnone : constantOfWord? s = none := by
    simp [constantOfWord?, sameWord, hs, Keyword.trueWord, Keyword.falseWord]
  rw [hnone] at h
  cases h

namespace Expression

/-- The two ways in which a text can be read. -/
inductive TextRead (scope : Scope κ) (s : String) : Tree κ → Prop
  | constant {b : Bool} (hword : constantOfWord? s = some b) (hscope : scope = none) :
      TextRead scope s (.constant b)
  | permission {name : String} {checker : κ} (htext : IsPermissionText s)
      (hscope : scope = some (name, checker)) : TextRead scope s (.permission name s checker)

/-- A text is read in one of these ways or not at all. -/
theorem text_eq_ok_iff {scope : Scope κ} {s : String} {tree : Tree κ} :
    text scope s = .ok tree ↔ TextRead scope s tree := by
  constructor
  · intro h
    unfold text at h
    split at h
    · cases h
    · rename_i hempty
      split at h
      · rename_i b hword
        cases scope with
        | none =>
            cases h
            exact .constant hword rfl
        | some type => cases h
      · rename_i hword
        cases scope with
        | none => cases h
        | some type =>
            cases h
            exact .permission (isPermissionText_iff.2 ⟨by simpa using hempty, hword⟩) rfl
  · rintro (⟨hword, rfl⟩ | ⟨htext, rfl⟩)
    · simp [text, hword, isEmpty_eq_false_of_constantOfWord? hword, constant]
    · obtain ⟨hempty, hword⟩ := isPermissionText_iff.1 htext
      simp [text, hword, hempty]

/-! ## Entries -/

/-- The sibling that an entry of an object yields. -/
def entry (registry : Registry κ) (scope : Scope κ) (room : Nat) (entry : String × Json) :
    Except Fault (Tree κ) := do
  let reading ← readKey registry scope entry.1 entry.2
  Tree.join reading.gate (← siblings registry reading.scope room entry.2)

/-- The three ways in which a key can be read. -/
inductive KeyRead (registry : Registry κ) (scope : Scope κ) (key : String) (value : Json) :
    Reading κ → Prop
  | position (hkey : Key.ofText key = .position) : KeyRead registry scope key value ⟨.or, scope⟩
  | gate {gate : Gate} (hkey : Key.ofText key = .gate gate)
      (hvalue : (gate.takesScalar || value.isCollection) = true) :
      KeyRead registry scope key value ⟨gate, scope⟩
  | type {checker : κ} (hkey : Key.ofText key = .type key) (hscope : scope = none)
      (hget : registry.get? key = some checker) :
      KeyRead registry scope key value ⟨.or, some (key, checker)⟩

/-- A registered type is found with its checker. -/
theorem get_eq_ok_iff {registry : Registry κ} {name : String} {checker : κ} :
    registry.get name = .ok checker ↔ registry.get? name = some checker := by
  unfold Registry.get
  split <;> simp_all

/-- A type that is not registered is not found, and looking up fails for nothing else. -/
theorem get_eq_error_iff {registry : Registry κ} {name : String} {fault : Fault} :
    registry.get name = .error fault ↔
      registry.get? name = none ∧ fault = .unknownType name := by
  unfold Registry.get
  cases registry.get? name <;> simp [eq_comm]

/-- A key is read in one of these ways or not at all. -/
theorem readKey_eq_ok_iff {registry : Registry κ} {scope : Scope κ} {key : String} {value : Json}
    {reading : Reading κ} :
    readKey registry scope key value = .ok reading ↔
      KeyRead registry scope key value reading := by
  constructor
  · intro h
    unfold readKey at h
    split at h
    · rename_i hkey
      cases h
      exact .position hkey
    · cases h
    · rename_i gate hkey
      split at h
      · rename_i hvalue
        cases h
        exact .gate hkey hvalue
      · cases h
    · cases h
    · rename_i name hkey
      have hname := Key.eq_of_ofText_eq_type hkey
      subst hname
      split at h
      · cases h
      · obtain ⟨checker, hget, h⟩ := bind_eq_ok_iff.1 h
        cases h
        exact .type hkey rfl (get_eq_ok_iff.1 hget)
  · rintro (hkey | ⟨hkey, hvalue⟩ | ⟨hkey, rfl, hget⟩)
    · simp [readKey, hkey]
    · simp only [readKey, hkey, hvalue, if_pos]
    · simp only [readKey, hkey, get_eq_ok_iff.2 hget]
      rfl

/-- An entry is read as its key says. -/
theorem entry_eq_ok_iff {registry : Registry κ} {scope : Scope κ} {room : Nat}
    {keyed : String × Json} {tree : Tree κ} :
    entry registry scope room keyed = .ok tree ↔
      ∃ reading, KeyRead registry scope keyed.1 keyed.2 reading ∧
        ∃ inputs, siblings registry reading.scope room keyed.2 = .ok inputs ∧
          Tree.join reading.gate inputs = .ok tree := by
  simp only [entry, bind_eq_ok_iff, readKey_eq_ok_iff]

/-! ## Collections -/

/-- The siblings of items are read one by one. -/
theorem siblingsOfItems_eq_mapM (registry : Registry κ) (scope : Scope κ) (room : Nat)
    (items : List Json) :
    siblingsOfItems registry scope room items = items.mapM (unit registry scope room) := by
  induction items with
  | nil => rfl
  | cons item rest ih =>
      rw [siblingsOfItems, ih, List.mapM_cons, unit, bind_assoc]

/-- The siblings of entries are read one by one. -/
theorem siblingsOfEntries_eq_mapM (registry : Registry κ) (scope : Scope κ) (room : Nat)
    (entries : List (String × Json)) :
    siblingsOfEntries registry scope room entries = entries.mapM (entry registry scope room) := by
  induction entries with
  | nil => rfl
  | cons keyed rest ih =>
      rw [siblingsOfEntries, ih, List.mapM_cons, entry, bind_assoc]
      simp only [bind_assoc]

/-- Without room no collection is read. -/
theorem siblings_zero (registry : Registry κ) (scope : Scope κ) {value : Json}
    (hvalue : value.isCollection = true) : siblings registry scope 0 value = .error .tooDeep := by
  cases value <;> simp_all [Json.isCollection, siblings]

/-- A collection that is read takes a level of room. -/
theorem exists_room_of_siblings {registry : Registry κ} {scope : Scope κ} {room : Nat}
    {value : Json} {trees : List (Tree κ)} (hvalue : value.isCollection = true)
    (h : siblings registry scope room value = .ok trees) : ∃ rest, room = rest + 1 := by
  cases room with
  | zero =>
      rw [siblings_zero registry scope hvalue] at h
      cases h
  | succ rest => exact ⟨rest, rfl⟩

/-- An array is read item by item. -/
@[simp] theorem siblings_array_succ (registry : Registry κ) (scope : Scope κ) (room : Nat)
    (items : List Json) :
    siblings registry scope (room + 1) (.array items) = items.mapM (unit registry scope room) := by
  rw [siblings, siblingsOfItems_eq_mapM]

/-- An object is read entry by entry. -/
@[simp] theorem siblings_object_succ (registry : Registry κ) (scope : Scope κ) (room : Nat)
    (entries : List (String × Json)) :
    siblings registry scope (room + 1) (.object entries) =
      entries.mapM (entry registry scope room) := by
  rw [siblings, siblingsOfEntries_eq_mapM]

/-- A value that stands for one tree joins its siblings by a disjunction. -/
theorem unit_eq_ok_iff {registry : Registry κ} {scope : Scope κ} {room : Nat} {value : Json}
    {tree : Tree κ} :
    unit registry scope room value = .ok tree ↔
      ∃ inputs, siblings registry scope room value = .ok inputs ∧
        Tree.join .or inputs = .ok tree := by
  rw [unit, bind_eq_ok_iff]

/-- An entry whose key leaves its value as it is, or says the type of it, yields what the value stands
for. -/
theorem entry_eq_unit {registry : Registry κ} {scope inner : Scope κ} {key : String} {value : Json}
    (hkey : readKey registry scope key value = .ok ⟨.or, inner⟩) (room : Nat) :
    entry registry scope room (key, value) = unit registry inner room value := by
  rw [entry, hkey]
  rfl

/-- An object of one such entry stands for what the value stands for, with the room that the object
leaves. -/
theorem unit_single {registry : Registry κ} {scope inner : Scope κ} {key : String} {value : Json}
    (hkey : readKey registry scope key value = .ok ⟨.or, inner⟩) (room : Nat) :
    unit registry scope (room + 1) (.object [(key, value)]) = unit registry inner room value := by
  rw [unit, siblings_object_succ, List.mapM_cons, List.mapM_nil, entry_eq_unit hkey]
  cases unit registry inner room value <;> rfl

/-! ## Depth -/

/-- The siblings of a value, whatever room there is beyond its own nesting. -/
def Siblings (registry : Registry κ) (scope : Scope κ) (value : Json) (trees : List (Tree κ)) :
    Prop :=
  siblings registry scope value.nesting value = .ok trees

/-- The tree that a value stands for, whatever room there is. -/
def Stands (registry : Registry κ) (scope : Scope κ) (value : Json) (tree : Tree κ) : Prop :=
  ∃ inputs, Siblings registry scope value inputs ∧ Tree.join .or inputs = .ok tree

/-- The tree of an entry, whatever room there is. -/
def EntryStands (registry : Registry κ) (scope : Scope κ) (keyed : String × Json)
    (tree : Tree κ) : Prop :=
  ∃ reading, KeyRead registry scope keyed.1 keyed.2 reading ∧
    ∃ inputs, Siblings registry reading.scope keyed.2 inputs ∧
      Tree.join reading.gate inputs = .ok tree

/-- Items are read with a room exactly if each nests no deeper and is read with any room. -/
theorem forall₂_unit_iff {registry : Registry κ} {scope : Scope κ} {room : Nat}
    {items : List Json} {trees : List (Tree κ)}
    (ih : ∀ item ∈ items, ∀ inputs, siblings registry scope room item = .ok inputs ↔
      item.nesting ≤ room ∧ Siblings registry scope item inputs) :
    List.Forall₂ (fun item tree => unit registry scope room item = .ok tree) items trees ↔
      Json.nestingItems items ≤ room ∧ List.Forall₂ (Stands registry scope) items trees := by
  rw [Json.nestingItems_le_iff, ← List.forall₂_and_left]
  refine forall₂_congr_of_mem fun item hitem tree => ?_
  rw [unit_eq_ok_iff]
  constructor
  · rintro ⟨inputs, hinputs, hjoin⟩
    obtain ⟨hnesting, hread⟩ := (ih item hitem inputs).1 hinputs
    exact ⟨hnesting, inputs, hread, hjoin⟩
  · rintro ⟨hnesting, inputs, hread, hjoin⟩
    exact ⟨inputs, (ih item hitem inputs).2 ⟨hnesting, hread⟩, hjoin⟩

/-- Entries are read with a room exactly if each nests no deeper and is read with any room. -/
theorem forall₂_entry_iff {registry : Registry κ} {scope : Scope κ} {room : Nat}
    {entries : List (String × Json)} {trees : List (Tree κ)}
    (ih : ∀ keyed ∈ entries, ∀ scope inputs, siblings registry scope room keyed.2 = .ok inputs ↔
      keyed.2.nesting ≤ room ∧ Siblings registry scope keyed.2 inputs) :
    List.Forall₂ (fun keyed tree => entry registry scope room keyed = .ok tree) entries trees ↔
      Json.nestingEntries entries ≤ room ∧
        List.Forall₂ (EntryStands registry scope) entries trees := by
  rw [Json.nestingEntries_le_iff, ← List.forall₂_and_left]
  refine forall₂_congr_of_mem fun keyed hkeyed tree => ?_
  rw [entry_eq_ok_iff]
  constructor
  · rintro ⟨reading, hkey, inputs, hinputs, hjoin⟩
    obtain ⟨hnesting, hread⟩ := (ih keyed hkeyed reading.scope inputs).1 hinputs
    exact ⟨hnesting, reading, hkey, inputs, hread, hjoin⟩
  · rintro ⟨hnesting, reading, hkey, inputs, hread, hjoin⟩
    exact ⟨reading, hkey, inputs, (ih keyed hkeyed reading.scope inputs).2 ⟨hnesting, hread⟩, hjoin⟩

/-- A value is read with a room exactly if it nests no deeper and is read with any room. -/
theorem siblings_eq_ok_iff {registry : Registry κ} {scope : Scope κ} {room : Nat} {value : Json}
    {trees : List (Tree κ)} :
    siblings registry scope room value = .ok trees ↔
      value.nesting ≤ room ∧ Siblings registry scope value trees := by
  induction value using Json.induction generalizing scope room trees with
  | null => simp [siblings, Siblings]
  | bool b => simp [siblings, Siblings, Json.nesting]
  | number n => simp [siblings, Siblings]
  | string s => simp [siblings, Siblings, Json.nesting]
  | array items ih =>
      -- the members have one level less, both in a given room and in that of the nesting
      have hitems : ∀ room,
          List.Forall₂ (fun item tree => unit registry scope room item = .ok tree) items trees ↔
            Json.nestingItems items ≤ room ∧ List.Forall₂ (Stands registry scope) items trees :=
        fun room => forall₂_unit_iff fun item hitem inputs => ih item hitem
      rw [Siblings, Json.nesting, siblings_array_succ, mapM_eq_ok_iff, hitems]
      cases room with
      | zero =>
          rw [siblings_zero registry scope rfl]
          simp
      | succ room => simp [mapM_eq_ok_iff, hitems]
  | object entries ih =>
      have hentries : ∀ room,
          List.Forall₂ (fun keyed tree => entry registry scope room keyed = .ok tree)
              entries trees ↔
            Json.nestingEntries entries ≤ room ∧
              List.Forall₂ (EntryStands registry scope) entries trees :=
        fun room => forall₂_entry_iff fun keyed hkeyed scope inputs => ih keyed hkeyed
      rw [Siblings, Json.nesting, siblings_object_succ, mapM_eq_ok_iff, hentries]
      cases room with
      | zero =>
          rw [siblings_zero registry scope rfl]
          simp
      | succ room => simp [mapM_eq_ok_iff, hentries]

/-- What stands for one tree is read with a room exactly if it nests no deeper. -/
theorem unit_eq_ok_iff_stands {registry : Registry κ} {scope : Scope κ} {room : Nat} {value : Json}
    {tree : Tree κ} :
    unit registry scope room value = .ok tree ↔
      value.nesting ≤ room ∧ Stands registry scope value tree := by
  simp only [unit_eq_ok_iff, siblings_eq_ok_iff, Stands, and_assoc, exists_and_left]

/-! ## The siblings of each kind of value -/

/-- Neither null nor a number is read. -/
@[simp] theorem not_siblings_null {registry : Registry κ} {scope : Scope κ}
    {trees : List (Tree κ)} : ¬ Siblings registry scope .null trees := by
  simp [Siblings, siblings]

/-- Neither null nor a number is read. -/
@[simp] theorem not_siblings_number {registry : Registry κ} {scope : Scope κ} {n : Number}
    {trees : List (Tree κ)} : ¬ Siblings registry scope (.number n) trees := by
  simp [Siblings, siblings]

/-- A boolean is read as a constant outside every type. -/
theorem siblings_bool_iff {registry : Registry κ} {scope : Scope κ} {b : Bool}
    {trees : List (Tree κ)} :
    Siblings registry scope (.bool b) trees ↔ scope = none ∧ trees = [.constant b] := by
  cases scope with
  | none => simp [Siblings, siblings, constant, bind, Except.bind, pure, Except.pure, eq_comm]
  | some type => simp [Siblings, siblings, constant, bind, Except.bind]

/-- A text is read as the one tree that it stands for. -/
theorem siblings_string_iff {registry : Registry κ} {scope : Scope κ} {s : String}
    {trees : List (Tree κ)} :
    Siblings registry scope (.string s) trees ↔
      ∃ tree, TextRead scope s tree ∧ trees = [tree] := by
  rw [Siblings, siblings, bind_eq_ok_iff]
  simp only [text_eq_ok_iff]
  constructor
  · rintro ⟨tree, htree, h⟩
    exact ⟨tree, htree, (Except.ok.inj h).symm⟩
  · rintro ⟨tree, htree, rfl⟩
    exact ⟨tree, htree, rfl⟩

/-- An array is read item by item. -/
theorem siblings_array_iff {registry : Registry κ} {scope : Scope κ} {items : List Json}
    {trees : List (Tree κ)} :
    Siblings registry scope (.array items) trees ↔
      List.Forall₂ (Stands registry scope) items trees := by
  rw [Siblings, Json.nesting, siblings_array_succ, mapM_eq_ok_iff,
    forall₂_unit_iff fun item _ inputs => siblings_eq_ok_iff]
  simp

/-- An object is read entry by entry. -/
theorem siblings_object_iff {registry : Registry κ} {scope : Scope κ}
    {entries : List (String × Json)} {trees : List (Tree κ)} :
    Siblings registry scope (.object entries) trees ↔
      List.Forall₂ (EntryStands registry scope) entries trees := by
  rw [Siblings, Json.nesting, siblings_object_succ, mapM_eq_ok_iff,
    forall₂_entry_iff fun keyed _ scope inputs => siblings_eq_ok_iff]
  simp

/-! ## The limit on nesting -/

/-- A value that has siblings has them in any room that it nests no deeper than, and nothing but its
depth is wrong with it in less. -/
theorem siblings_eq_ite {registry : Registry κ} {scope : Scope κ} {value : Json}
    {trees : List (Tree κ)} (h : Siblings registry scope value trees) (room : Nat) :
    siblings registry scope room value =
      if value.nesting ≤ room then .ok trees else .error .tooDeep := by
  induction value using Json.induction generalizing scope room trees with
  | null => exact absurd h not_siblings_null
  | number n => exact absurd h not_siblings_number
  | bool b | string s =>
      rw [if_pos (by simp [Json.nesting])]
      exact siblings_eq_ok_iff.2 ⟨by simp [Json.nesting], h⟩
  | array items ih =>
      cases room with
      | zero => rw [siblings_zero registry scope rfl, if_neg (by simp [Json.nesting])]
      | succ room =>
          simp only [siblings_array_succ, Json.nesting, Nat.add_le_add_iff_right,
            Json.nestingItems_le_iff]
          refine mapM_eq_ite (forall₂_imp_of_mem ?_ (siblings_array_iff.1 h))
          rintro item hitem tree ⟨inputs, hinputs, hjoin⟩
          rw [unit, ih item hitem hinputs, bind_of_ite, hjoin]
  | object entries ih =>
      cases room with
      | zero => rw [siblings_zero registry scope rfl, if_neg (by simp [Json.nesting])]
      | succ room =>
          simp only [siblings_object_succ, Json.nesting, Nat.add_le_add_iff_right,
            Json.nestingEntries_le_iff]
          refine mapM_eq_ite (forall₂_imp_of_mem ?_ (siblings_object_iff.1 h))
          rintro keyed hkeyed tree ⟨reading, hkey, inputs, hinputs, hjoin⟩
          rw [entry, readKey_eq_ok_iff.2 hkey]
          show siblings registry reading.scope room keyed.2 >>= Tree.join reading.gate = _
          rw [ih keyed hkeyed hinputs, bind_of_ite, hjoin]

/-- What stands for one tree is read as that tree, or is too deep. -/
theorem unit_eq_ite {registry : Registry κ} {scope : Scope κ} {value : Json} {tree : Tree κ}
    (h : Stands registry scope value tree) (room : Nat) :
    unit registry scope room value =
      if value.nesting ≤ room then .ok tree else .error .tooDeep := by
  obtain ⟨inputs, hinputs, hjoin⟩ := h
  rw [unit, siblings_eq_ite hinputs, bind_of_ite, hjoin]

/-! ## Whole expressions -/

/-- An empty collection stands for no tree. -/
theorem not_stands_empty {registry : Registry κ} {scope : Scope κ} {raw : Json} {tree : Tree κ}
    (hraw : raw = .array [] ∨ raw = .object []) : ¬ Stands registry scope raw tree := by
  rintro ⟨inputs, hinputs, hjoin⟩
  have hnil : inputs = [] := by
    rcases hraw with rfl | rfl
    · exact List.forall₂_nil_left_iff.1 (siblings_array_iff.1 hinputs)
    · exact List.forall₂_nil_left_iff.1 (siblings_object_iff.1 hinputs)
  rw [hnil] at hjoin
  cases hjoin

/-- Neither null nor a number stands for a tree. -/
theorem kind_of_stands {registry : Registry κ} {scope : Scope κ} {raw : Json} {tree : Tree κ}
    (h : Stands registry scope raw tree) : raw.kind ≠ .null ∧ raw.kind ≠ .number := by
  obtain ⟨inputs, hinputs, -⟩ := h
  cases raw with
  | null => exact absurd hinputs not_siblings_null
  | number n => exact absurd hinputs not_siblings_number
  | bool b => exact ⟨by simp [Json.kind], by simp [Json.kind]⟩
  | string s => exact ⟨by simp [Json.kind], by simp [Json.kind]⟩
  | array items => exact ⟨by simp [Json.kind], by simp [Json.kind]⟩
  | object entries => exact ⟨by simp [Json.kind], by simp [Json.kind]⟩

/-- Any expression but null, a number and an empty collection is read as what stands for one
tree. -/
theorem read_eq_unit {registry : Registry κ} {raw : Json}
    (hkind : raw.kind ≠ .null ∧ raw.kind ≠ .number)
    (hempty : ¬ (raw = .array [] ∨ raw = .object [])) :
    read registry raw = unit registry none nestingLimit raw := by
  unfold read
  split <;> simp_all [Json.kind]

/-- A whole expression that stands for one tree is read as that tree, or is too deep. -/
theorem read_eq_ite {registry : Registry κ} {raw : Json} {tree : Tree κ}
    (h : Stands registry none raw tree) :
    read registry raw = if raw.nesting ≤ nestingLimit then .ok tree else .error .tooDeep := by
  have hempty : ¬ (raw = .array [] ∨ raw = .object []) := fun hraw => not_stands_empty hraw h
  rw [read_eq_unit (kind_of_stands h) hempty, unit_eq_ite h]

/-- An expression is accepted if it is an empty collection, or if it nests no deeper than the limit
and stands for a tree. -/
theorem read_eq_ok_iff {registry : Registry κ} {raw : Json} {tree : Tree κ} :
    read registry raw = .ok tree ↔
      (raw = .array [] ∨ raw = .object []) ∧ tree = .constant true ∨
        raw.nesting ≤ nestingLimit ∧ Stands registry none raw tree := by
  by_cases hempty : raw = .array [] ∨ raw = .object []
  · have hread : read registry raw = .ok (.constant true) := by
      rcases hempty with rfl | rfl <;> rfl
    have hstands : ¬ Stands registry none raw tree := not_stands_empty hempty
    simp [hread, hempty, hstands, eq_comm]
  · by_cases hkind : raw.kind ≠ .null ∧ raw.kind ≠ .number
    · rw [read_eq_unit hkind hempty, unit_eq_ok_iff_stands]
      simp [hempty]
    · have hstands : ¬ Stands registry none raw tree := fun h => hkind (kind_of_stands h)
      simp only [hempty, hstands, false_and, and_false, or_self, iff_false]
      cases raw <;> simp_all [Json.kind, read]

end Expression

end Clearance
