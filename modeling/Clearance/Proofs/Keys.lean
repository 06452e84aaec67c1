import Clearance.Registry
import Mathlib.Tactic.Common

/-!
# Classes of keys

A key is read by a chain of tests, each in turn.  The tests never compete: the class of a key can be
said of the key alone, in whatever order it is tested, and the case of letters never matters.
-/

namespace Clearance

/-! ## Letter case -/

/-- A letter in upper case is a digit exactly if it was one before. -/
theorem isDigit_toUpper (c : Char) : c.toUpper.isDigit = c.isDigit := by
  unfold Char.toUpper
  split
  · rename_i h
    have hlow : 97 ≤ c.val.toNat := UInt32.le_iff_toNat_le.1 h.1
    have hhigh : c.val.toNat ≤ 122 := UInt32.le_iff_toNat_le.1 h.2
    have hupper : (c.val + ('A'.val - 'a'.val)).toNat = c.val.toNat - 32 := by
      rw [UInt32.toNat_add]
      show (c.val.toNat + 4294967264) % 4294967296 = c.val.toNat - 32
      omega
    -- '9' is 57, below every letter of either case
    have hbefore : ¬ c.val.toNat ≤ 57 := by omega
    have hafter : ¬ (c.val + ('A'.val - 'a'.val)).toNat ≤ 57 := by omega
    rw [Char.isDigit, Char.isDigit]
    have h1 : decide (c.val ≤ '9'.val) = false :=
      decide_eq_false fun hle => hbefore (UInt32.le_iff_toNat_le.1 hle)
    have h2 : decide (c.val + ('A'.val - 'a'.val) ≤ '9'.val) = false :=
      decide_eq_false fun hle => hafter (UInt32.le_iff_toNat_le.1 hle)
    rw [h1, h2, Bool.and_false, Bool.and_false]
  · rfl

/-- Texts that differ only in case are positions together. -/
theorem isPosition_eq_of_sameWord {a b : String} (h : sameWord a b = true) :
    isPosition a = isPosition b := by
  have hmap : a.toList.map Char.toUpper = b.toList.map Char.toUpper := by
    simpa [sameWord] using h
  have hempty : a.toList.isEmpty = b.toList.isEmpty := by
    rw [← List.isEmpty_map (f := Char.toUpper), hmap, List.isEmpty_map]
  have hdigits : ∀ l : List Char, l.all Char.isDigit = (l.map Char.toUpper).all Char.isDigit := by
    intro l
    rw [List.all_map]
    exact List.all_congr rfl fun c => (isDigit_toUpper c).symm
  rw [isPosition, isPosition, hempty, hdigits a.toList, hdigits b.toList, hmap]

/-- Texts that differ only in case differ from the same texts only in case. -/
theorem sameWord_eq_of_sameWord {a b : String} (h : sameWord a b = true) (word : String) :
    sameWord a word = sameWord b word := by
  have hmap : a.toList.map Char.toUpper = b.toList.map Char.toUpper := by
    simpa [sameWord] using h
  rw [sameWord, sameWord, hmap]

/-! ## Keywords -/

/-- The keywords of different gates differ in more than case. -/
theorem sameWord_keyword_iff {g g' : Gate} : sameWord g.keyword g'.keyword = true ↔ g = g' := by
  cases g <;> cases g' <;> decide

/-- A word names a gate exactly if it is the keyword of the gate but for case. -/
theorem ofWord?_eq_some_iff {word : String} {g : Gate} :
    Gate.ofWord? word = some g ↔ sameWord word g.keyword = true := by
  constructor
  · intro h
    have hfound : sameWord word g.keyword = true :=
      List.find?_some (p := fun g : Gate => sameWord word g.keyword) h
    exact hfound
  · intro h
    have hcongr : (fun g' : Gate => sameWord word g'.keyword)
        = fun g' => sameWord g.keyword g'.keyword := by
      funext g'
      exact sameWord_eq_of_sameWord h g'.keyword
    rw [Gate.ofWord?, hcongr]
    exact Gate.ofWord?_keyword g

/-- A word names no gate exactly if it is the keyword of none. -/
theorem ofWord?_eq_none_iff {word : String} :
    Gate.ofWord? word = none ↔ ∀ g : Gate, sameWord word g.keyword = false := by
  rw [Option.eq_none_iff_forall_ne_some]
  simp only [Ne, ofWord?_eq_some_iff, Bool.not_eq_true]

/-- A word stands for no constant exactly if it is neither of the words for one. -/
theorem constantOfWord?_eq_none_iff {word : String} :
    constantOfWord? word = none ↔
      sameWord word Keyword.trueWord = false ∧ sameWord word Keyword.falseWord = false := by
  rw [constantOfWord?]
  cases sameWord word Keyword.trueWord <;> cases sameWord word Keyword.falseWord <;> simp

/-! ## Classes -/

/-- A key that is neither a position nor a keyword in any case. -/
def IsTypeKey (key : String) : Prop :=
  isPosition key = false ∧ ∀ word ∈ Keyword.reserved, sameWord key word = false

/-- No keyword but those of the gates, of the bypass restriction and of the constants is
reserved. -/
theorem forall_mem_reserved_iff {P : String → Prop} :
    (∀ word ∈ Keyword.reserved, P word) ↔
      (∀ g : Gate, P g.keyword) ∧ P Keyword.noBypass ∧ P Keyword.trueWord ∧
        P Keyword.falseWord := by
  have hall : ∀ g : Gate, g ∈ Gate.all := by
    intro g
    cases g <;> decide
  simp only [Keyword.reserved, List.forall_mem_append, List.forall_mem_map, List.forall_mem_cons]
  simp [hall]

/-- The class of a key depends on no more of it than its word, but for the name of a type. -/
theorem ofText_eq_of_sameWord {a b : String} (h : sameWord a b = true) :
    Key.ofText a = match Key.ofText b with
      | .type _ => .type a
      | key => key := by
  have hword := sameWord_eq_of_sameWord h
  -- every test of the chain gives the same answer for both keys, and only the last names the key
  unfold Key.ofText Gate.ofWord? constantOfWord?
  simp only [hword, isPosition_eq_of_sameWord h]
  split
  · rfl
  split
  · rfl
  split
  · rfl
  split <;> rfl

/-- The class of a key that is a keyword but for case is that of the keyword. -/
theorem ofText_of_sameWord {a b : String} {key : Key} (h : sameWord a b = true)
    (hb : Key.ofText b = key) (hkey : ∀ name, key ≠ .type name) : Key.ofText a = key := by
  rw [ofText_eq_of_sameWord h, hb]
  cases key with
  | type name => exact absurd rfl (hkey name)
  | position | noBypass | gate g | constant value => rfl

/-- The keys read as positions. -/
theorem ofText_eq_position_iff {key : String} :
    Key.ofText key = .position ↔ isPosition key = true := by
  constructor
  · intro h
    unfold Key.ofText at h
    repeat' split at h
    all_goals simp_all
  · intro h
    rw [Key.ofText, if_pos h]

/-- The keys read as the bypass restriction. -/
theorem ofText_eq_noBypass_iff {key : String} :
    Key.ofText key = .noBypass ↔ sameWord key Keyword.noBypass = true := by
  constructor
  · intro h
    unfold Key.ofText at h
    repeat' split at h
    all_goals simp_all
  · intro h
    exact ofText_of_sameWord h (by decide) (by simp)

/-- The keys read as a gate. -/
theorem ofText_eq_gate_iff {key : String} {g : Gate} :
    Key.ofText key = .gate g ↔ sameWord key g.keyword = true := by
  constructor
  · intro h
    unfold Key.ofText at h
    repeat' split at h
    all_goals simp_all [← ofWord?_eq_some_iff]
  · intro h
    exact ofText_of_sameWord h (Key.ofText_keyword g) (by simp)

/-- The keys read as a constant. -/
theorem ofText_eq_constant_iff {key : String} :
    (∃ b, Key.ofText key = .constant b) ↔
      sameWord key Keyword.trueWord = true ∨ sameWord key Keyword.falseWord = true := by
  constructor
  · rintro ⟨b, h⟩
    by_contra hwords
    rw [not_or, Bool.not_eq_true, Bool.not_eq_true, ← constantOfWord?_eq_none_iff] at hwords
    unfold Key.ofText at h
    repeat' split at h
    all_goals simp_all
  · rintro (h | h)
    · exact ⟨true, ofText_of_sameWord h (by decide) (by simp)⟩
    · exact ⟨false, ofText_of_sameWord h (by decide) (by simp)⟩

/-- The keys read as the name of a type. -/
theorem ofText_eq_type_iff {key name : String} :
    Key.ofText key = .type name ↔ key = name ∧ IsTypeKey key := by
  rw [IsTypeKey, forall_mem_reserved_iff]
  constructor
  · intro h
    refine ⟨Key.eq_of_ofText_eq_type h, ?_, ?_, ?_, ?_⟩
    · rw [← Bool.not_eq_true, ← ofText_eq_position_iff, h]
      simp
    · intro g
      rw [← Bool.not_eq_true, ← ofText_eq_gate_iff, h]
      simp
    · rw [← Bool.not_eq_true, ← ofText_eq_noBypass_iff, h]
      simp
    · have hconstant : ¬ ∃ b, Key.ofText key = .constant b := by simp [h]
      rwa [ofText_eq_constant_iff, not_or, Bool.not_eq_true, Bool.not_eq_true] at hconstant
  · rintro ⟨rfl, hposition, hgates, hbypass, hwords⟩
    have hgate := ofWord?_eq_none_iff.2 hgates
    have hconstant := constantOfWord?_eq_none_iff.2 hwords
    simp [Key.ofText, hposition, hbypass, hgate, hconstant]

/-! ## Names of registered types -/

/-- A name is valid exactly if it is not empty and read as the name of a type. -/
theorem nameFault?_eq_none_iff {name : String} :
    nameFault? name = none ↔ name ≠ "" ∧ IsTypeKey name := by
  have hempty : name.toList.isEmpty = false ↔ name ≠ "" := by
    rw [Ne, ← String.toList_inj, String.toList_empty, List.isEmpty_eq_false_iff]
  have hany : (Keyword.reserved.any (sameWord · name)) = false ↔
      ∀ word ∈ Keyword.reserved, sameWord name word = false := by
    rw [List.any_eq_false]
    simp only [sameWord_comm name, Bool.not_eq_true]
  rw [IsTypeKey, ← hempty, ← hany, nameFault?]
  cases name.toList.isEmpty <;> cases isPosition name <;>
    cases Keyword.reserved.any (sameWord · name) <;> simp

/-- A registered name has been found in an entry. -/
theorem mem_entries_of_get? {κ : Type} {registry : Registry κ} {name : String} {checker : κ}
    (h : registry.get? name = some checker) : ∃ entry ∈ registry.entries, entry.1 = name := by
  by_contra hnone
  have habsent : registry.get? name = none := by
    rw [Registry.get?, List.lookup_eq_none_iff]
    intro entry hentry
    simp only [bne_iff_ne, ne_eq]
    exact fun hname => hnone ⟨entry, hentry, hname.symm⟩
  rw [habsent] at h
  cases h

/-- A registered name is read as the name of a type. -/
theorem isTypeKey_of_get? {κ : Type} {registry : Registry κ} {name : String} {checker : κ}
    (h : registry.get? name = some checker) : IsTypeKey name := by
  obtain ⟨entry, hentry, rfl⟩ := mem_entries_of_get? h
  exact (nameFault?_eq_none_iff.1 (registry.named entry hentry)).2

/-- The registry of a single type. -/
def Registry.single {κ : Type} (name : String) (checker : κ) (hname : nameFault? name = none) :
    Registry κ where
  entries := [(name, checker)]
  sorted := List.pairwise_singleton _ _
  named := List.forall_mem_singleton.2 hname

/-- A registry that knows nothing but roles. -/
def Registry.roles : Registry Unit := single "role" () (by decide)

end Clearance
