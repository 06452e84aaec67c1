import Clearance.Proofs.Grammar

/-!
# Walks through values

A value is walked through from left to right, every collection before its members.  A walk can be
read off any text that begins with it, so that two values through which the walk begins alike agree
in all that it has met.
-/

namespace Clearance

/-! ## Words that tell where they end -/

/-- Words that stand for the members of a list can be read off any text one by one: no word begins
with the letter `stop`, which can then stand after the last one. -/
structure SelfDelimiting {α β : Type} (f : α → List β) (stop : β) (xs : List α) : Prop where
  begins : ∀ x p q, f x ++ p ≠ stop :: q
  unique : ∀ x ∈ xs, ∀ y p q, f x ++ p = f y ++ q → x = y ∧ p = q

namespace SelfDelimiting

variable {α β : Type} {f : α → List β} {stop : β}

/-- What can be read off for a list can be read off for the rest of it. -/
theorem tail {x : α} {xs : List α} (h : SelfDelimiting f stop (x :: xs)) :
    SelfDelimiting f stop xs :=
  ⟨h.begins, fun y hy => h.unique y (List.mem_cons_of_mem x hy)⟩

/-- The members are read off, and so is what stands after them. -/
theorem flatMap_inj {xs ys : List α} {p q : List β} (h : SelfDelimiting f stop xs)
    (heq : xs.flatMap f ++ stop :: p = ys.flatMap f ++ stop :: q) : xs = ys ∧ p = q := by
  induction xs generalizing ys with
  | nil =>
      cases ys with
      | nil => exact ⟨rfl, (List.cons.inj heq).2⟩
      | cons y ys =>
          rw [List.flatMap_cons, List.append_assoc] at heq
          exact absurd heq.symm (h.begins y _ _)
  | cons x xs ih =>
      cases ys with
      | nil =>
          rw [List.flatMap_cons, List.append_assoc] at heq
          exact absurd heq (h.begins x _ _)
      | cons y ys =>
          rw [List.flatMap_cons, List.flatMap_cons, List.append_assoc, List.append_assoc] at heq
          obtain ⟨rfl, hrest⟩ := h.unique x (by simp) y _ _ heq
          obtain ⟨rfl, rfl⟩ := ih h.tail hrest
          exact ⟨rfl, rfl⟩

/-- A text that begins with the words of some members, and goes on with no `stop`, has these members
first and then another one, whose word goes on as the text does. -/
theorem exists_split {before others : List α} {seen rest : List β}
    (h : SelfDelimiting f stop before) (hseen : ∀ q, ¬ seen <+: stop :: q)
    (hstart : before.flatMap f ++ seen <+: others.flatMap f ++ stop :: rest) :
    ∃ x after, others = before ++ x :: after ∧
      seen <+: f x ++ (after.flatMap f ++ stop :: rest) := by
  induction before generalizing others with
  | nil =>
      cases others with
      | nil => exact absurd hstart (hseen rest)
      | cons x after =>
          rw [List.flatMap_cons, List.append_assoc] at hstart
          exact ⟨x, after, rfl, hstart⟩
  | cons y before ih =>
      obtain ⟨later, hlater⟩ := hstart
      rw [List.flatMap_cons, List.append_assoc, List.append_assoc] at hlater
      cases others with
      | nil => exact absurd hlater (h.begins y _ _)
      | cons z others =>
          rw [List.flatMap_cons, List.append_assoc] at hlater
          obtain ⟨rfl, hrest⟩ := h.unique y (by simp) z _ _ hlater
          rw [← List.append_assoc] at hrest
          obtain ⟨x, after, rfl, hx⟩ := ih h.tail ⟨later, hrest⟩
          exact ⟨x, after, rfl, hx⟩

end SelfDelimiting

/-! ## Walks -/

namespace Json

/-- What a walk through a value meets. -/
inductive Visit
  /-- It enters an array or an object. -/
  | enter (kind : Kind)
  /-- It comes to the key of an entry. -/
  | key (name : String)
  /-- It comes to a value that is no collection. -/
  | scalar (value : Json)
  /-- It leaves a collection. -/
  | leave

mutual

/-- The walk through a value, from left to right and each collection before its members. -/
def walk : Json → List Visit
  | array items => .enter .array :: walkItems items
  | object entries => .enter .object :: walkEntries entries
  | value => [.scalar value]

/-- The walk through items, and out of their array. -/
def walkItems : List Json → List Visit
  | [] => [.leave]
  | item :: rest => walk item ++ walkItems rest

/-- The walk through entries, each key before its value, and out of their object. -/
def walkEntries : List (String × Json) → List Visit
  | [] => [.leave]
  | (key, value) :: rest => .key key :: (walk value ++ walkEntries rest)

end

/-- What the walk meets on its way to the value of a member. -/
def walkStep : Option String → List Visit
  | none => []
  | some key => [.key key]

/-- The walk through a member. -/
def walkMember (member : Option String × Json) : List Visit := walkStep member.1 ++ member.2.walk

/-- After the walk through a member a text goes on. -/
theorem walkMember_append (step : Option String) (part : Json) (rest : List Visit) :
    walkMember (step, part) ++ rest = walkStep step ++ (part.walk ++ rest) := by
  rw [walkMember, List.append_assoc]

/-- A value that is no collection is met at once. -/
theorem walk_scalar {value : Json} (hvalue : value.isCollection = false) :
    value.walk = [.scalar value] := by
  cases value with
  | array | object => cases hvalue
  | null | bool | number | string => simp [walk]

/-- The walk through items is that through each. -/
theorem walkItems_eq_flatMap (items : List Json) :
    walkItems items = items.flatMap walk ++ [.leave] := by
  induction items with
  | nil => rfl
  | cons item rest ih => rw [walkItems, ih, List.flatMap_cons, List.append_assoc]

/-- The walk through entries is that through each. -/
theorem walkEntries_eq_flatMap (entries : List (String × Json)) :
    walkEntries entries = entries.flatMap (fun entry => .key entry.1 :: walk entry.2) ++
      [.leave] := by
  induction entries with
  | nil => rfl
  | cons entry rest ih =>
      rw [walkEntries, ih, List.flatMap_cons, List.cons_append, List.cons_append, List.append_assoc]

/-- A collection is entered, its members are walked through, and it is left. -/
theorem walk_collection {value : Json} (hvalue : value.isCollection = true) :
    value.walk = .enter value.kind :: (value.members.flatMap walkMember ++ [.leave]) := by
  cases value with
  | null | bool | number | string => cases hvalue
  | array items =>
      rw [walk, walkItems_eq_flatMap, members, List.flatMap_map]
      rfl
  | object entries =>
      rw [walk, walkEntries_eq_flatMap, members, List.flatMap_map]
      rfl

/-- A collection inside another is walked through on the way through the outer one. -/
example : walk (.object [("role", .array [.string "admin"])]) =
    [.enter .object, .key "role", .enter .array, .scalar (.string "admin"), .leave, .leave] := rfl

/-- After the walk through a collection a text goes on. -/
theorem walk_collection_append {value : Json} (hvalue : value.isCollection = true)
    (rest : List Visit) :
    value.walk ++ rest =
      .enter value.kind :: (value.members.flatMap walkMember ++ .leave :: rest) := by
  rw [walk_collection hvalue, List.cons_append, List.append_assoc, List.singleton_append]

/-- Only collections have members. -/
theorem isCollection_of_members_eq {value : Json} {member : Option String × Json}
    {before after : List (Option String × Json)}
    (h : value.members = before ++ member :: after) : value.isCollection = true := by
  cases value with
  | array | object => rfl
  | null | bool | number | string => simp [members] at h

/-- The walk up to a place in a member is part of the walk through the collection. -/
theorem isPrefix_walk_of_members {value : Json} {member : Option String × Json}
    {before after : List (Option String × Json)} {seen : List Visit}
    (hmembers : value.members = before ++ member :: after) (hseen : seen <+: walkMember member) :
    .enter value.kind :: (before.flatMap walkMember ++ seen) <+: value.walk := by
  have hrest : seen <+: walkMember member ++ (after.flatMap walkMember ++ [.leave]) :=
    hseen.trans (List.prefix_append _ _)
  rw [walk_collection (isCollection_of_members_eq hmembers), hmembers, List.flatMap_append,
    List.flatMap_cons, List.append_assoc, List.append_assoc, List.cons_prefix_cons]
  exact ⟨rfl, (List.prefix_append_right_inj _).2 hrest⟩

/-- What the walk through a value begins with. -/
def firstVisit (value : Json) : Visit :=
  if value.isCollection then .enter value.kind else .scalar value

/-- A value that is no collection is its first visit. -/
theorem firstVisit_scalar {value : Json} (hvalue : value.isCollection = false) :
    value.firstVisit = .scalar value := by
  rw [firstVisit, if_neg (by simp [hvalue])]

/-- The first visit of a collection enters it. -/
theorem firstVisit_collection {value : Json} (hvalue : value.isCollection = true) :
    value.firstVisit = .enter value.kind := by
  rw [firstVisit, if_pos hvalue]

/-- The walk through a value begins with its first visit. -/
theorem exists_walk_eq (value : Json) : ∃ rest, value.walk = value.firstVisit :: rest := by
  cases hvalue : value.isCollection with
  | true => exact ⟨_, by rw [walk_collection hvalue, firstVisit_collection hvalue]⟩
  | false => exact ⟨[], by rw [walk_scalar hvalue, firstVisit_scalar hvalue]⟩

/-- Induction over values, all collections alike. -/
@[elab_as_elim]
theorem induction_members {P : Json → Prop}
    (scalar : ∀ value, value.isCollection = false → P value)
    (collection : ∀ value, value.isCollection = true →
      (∀ member ∈ value.members, P member.2) → P value) (value : Json) : P value := by
  induction value using Json.induction with
  | null => exact scalar _ rfl
  | bool b => exact scalar _ rfl
  | number n => exact scalar _ rfl
  | string s => exact scalar _ rfl
  | array items ih => exact collection _ rfl (List.forall_mem_map.2 ih)
  | object entries ih => exact collection _ rfl (List.forall_mem_map.2 ih)

/-- A collection is told by its kind and its members. -/
theorem eq_of_members_eq {a b : Json} (ha : a.isCollection = true) (hkind : a.kind = b.kind)
    (hmembers : a.members = b.members) : a = b := by
  cases a with
  | null | bool | number | string => cases ha
  | array items =>
      cases b with
      | array items' =>
          have hinj : Function.Injective fun item : Json => ((none : Option String), item) :=
            fun x y h => (Prod.mk.inj h).2
          rw [hinj.list_map hmembers]
      | null | bool | number | string | object => cases hkind
  | object entries =>
      cases b with
      | object entries' =>
          have hinj : Function.Injective fun entry : String × Json => (some entry.1, entry.2) :=
            fun x y h => Prod.ext (Option.some.inj (Prod.mk.inj h).1) (Prod.mk.inj h).2
          rw [hinj.list_map hmembers]
      | null | bool | number | string | array => cases hkind

/-- The walk through a value begins with no key and does not leave. -/
theorem firstVisit_ne (value : Json) :
    (∀ name, value.firstVisit ≠ .key name) ∧ value.firstVisit ≠ .leave := by
  rw [firstVisit]
  split <;> simp

/-- Only collections begin as collections do. -/
theorem isCollection_eq_of_firstVisit_eq {a b : Json} (h : a.firstVisit = b.firstVisit) :
    a.isCollection = b.isCollection := by
  cases a <;> cases b <;> simp_all [firstVisit, isCollection]

/-- Values whose walks begin alike are of one kind. -/
theorem kind_eq_of_firstVisit_eq {a b : Json} (h : a.firstVisit = b.firstVisit) :
    a.kind = b.kind := by
  cases a <;> cases b <;> simp_all [firstVisit, isCollection, kind]

/-- A text that begins with the first visit of one value and with the walk through another begins
with the first visit of both. -/
theorem firstVisit_eq_of_isPrefix {a b : Json} {tail rest : List Visit}
    (h : a.firstVisit :: tail <+: b.walk ++ rest) : a.firstVisit = b.firstVisit := by
  obtain ⟨walked, hwalked⟩ := b.exists_walk_eq
  rw [hwalked, List.cons_append, List.cons_prefix_cons] at h
  exact h.1

/-- A text that begins with a key and with the walk through a member begins with an entry of that
key. -/
theorem step_eq_of_key_isPrefix {key : String} {step : Option String} {b : Json}
    {tail rest : List Visit} (h : .key key :: tail <+: walkStep step ++ (b.walk ++ rest)) :
    step = some key ∧ tail <+: b.walk ++ rest := by
  cases step with
  | none =>
      obtain ⟨walked, hwalked⟩ := b.exists_walk_eq
      rw [walkStep, List.nil_append, hwalked] at h
      exact absurd (List.cons_prefix_cons.1 h).1.symm (b.firstVisit_ne.1 key)
  | some key' =>
      obtain ⟨hkey, hrest⟩ := List.cons_prefix_cons.1 h
      cases hkey
      exact ⟨rfl, hrest⟩

/-- A text that begins as the walks through two members do has one step for both. -/
theorem step_eq_of_isPrefix {step step' : Option String} {a b : Json} {tail rest : List Visit}
    (h : walkStep step ++ a.firstVisit :: tail <+: walkStep step' ++ (b.walk ++ rest)) :
    step' = step ∧ a.firstVisit :: tail <+: b.walk ++ rest := by
  cases step with
  | none =>
      cases step' with
      | none => exact ⟨rfl, h⟩
      | some key => exact absurd (List.cons_prefix_cons.1 h).1 (a.firstVisit_ne.1 key)
  | some key => exact step_eq_of_key_isPrefix h

/-- The walk through a member does not begin by leaving a collection. -/
theorem not_isPrefix_leave {step : Option String} {a : Json} {tail : List Visit} (q : List Visit) :
    ¬ walkStep step ++ a.firstVisit :: tail <+: .leave :: q := by
  cases step with
  | none => exact fun h => a.firstVisit_ne.2 (List.cons_prefix_cons.1 h).1
  | some key => exact fun h => Visit.noConfusion (List.cons_prefix_cons.1 h).1

/-- If walks through values can be read off, so can walks through members. -/
theorem selfDelimiting_walkMember {members : List (Option String × Json)}
    (h : ∀ member ∈ members, ∀ value p q,
      member.2.walk ++ p = walk value ++ q → member.2 = value ∧ p = q) :
    SelfDelimiting walkMember .leave members where
  begins := by
    rintro ⟨step, value⟩ p q heq
    obtain ⟨walked, hwalked⟩ := value.exists_walk_eq
    rw [walkMember_append, hwalked, List.cons_append] at heq
    exact not_isPrefix_leave q ⟨[], by rw [heq, List.append_nil]⟩
  unique := by
    rintro ⟨step, value⟩ hmember ⟨step', value'⟩ p q heq
    obtain ⟨walked, hwalked⟩ := value.exists_walk_eq
    rw [walkMember_append, walkMember_append] at heq
    have hstart : walkStep step ++ value.firstVisit :: walked <+:
        walkStep step' ++ (value'.walk ++ q) :=
      ⟨p, by rw [List.append_assoc, ← hwalked, heq]⟩
    obtain ⟨rfl, -⟩ := step_eq_of_isPrefix hstart
    obtain ⟨rfl, rfl⟩ := h _ hmember value' p q (List.append_cancel_left heq)
    exact ⟨rfl, rfl⟩

/-- A text that begins with a value and with the walk through another begins with one value. -/
theorem eq_of_scalar_isPrefix {value other : Json} {rest : List Visit}
    (hvalue : value.isCollection = false) (h : [.scalar value] <+: other.walk ++ rest) :
    value = other := by
  rw [← firstVisit_scalar hvalue] at h
  have hfirst := firstVisit_eq_of_isPrefix h
  have hother : other.isCollection = false := by
    rw [← isCollection_eq_of_firstVisit_eq hfirst, hvalue]
  rw [firstVisit_scalar hvalue, firstVisit_scalar hother] at hfirst
  exact Visit.scalar.inj hfirst

/-- A text that enters a collection and begins with the walk through a value enters that value. -/
theorem enter_of_isPrefix {value other : Json} {tail rest : List Visit}
    (hvalue : value.isCollection = true)
    (h : .enter value.kind :: tail <+: other.walk ++ rest) :
    other.isCollection = true ∧ value.kind = other.kind ∧
      tail <+: other.members.flatMap walkMember ++ .leave :: rest := by
  have hfirst : value.firstVisit = other.firstVisit := by
    rw [← firstVisit_collection hvalue] at h
    exact firstVisit_eq_of_isPrefix h
  have hother : other.isCollection = true := by
    rw [← isCollection_eq_of_firstVisit_eq hfirst, hvalue]
  rw [walk_collection_append hother, List.cons_prefix_cons] at h
  exact ⟨hother, Visit.enter.inj h.1, h.2⟩

/-- The walk through a value is read off any text that begins with it. -/
theorem walk_append_inj {a b : Json} {p q : List Visit} (h : a.walk ++ p = b.walk ++ q) :
    a = b ∧ p = q := by
  induction a using induction_members generalizing b p q with
  | scalar a ha =>
      have hstart : [.scalar a] <+: b.walk ++ q := ⟨p, by rw [← h, walk_scalar ha]⟩
      obtain rfl := eq_of_scalar_isPrefix ha hstart
      exact ⟨rfl, List.append_cancel_left h⟩
  | collection a ha ih =>
      have hcode : SelfDelimiting walkMember .leave a.members :=
        selfDelimiting_walkMember fun member hmember value p q heq => ih member hmember heq
      rw [walk_collection_append ha] at h
      obtain ⟨hb, hkind, -⟩ := enter_of_isPrefix ha ⟨[], by rw [h, List.append_nil]⟩
      rw [walk_collection_append hb] at h
      obtain ⟨hmembers, hrest⟩ := hcode.flatMap_inj (List.cons.inj h).2
      exact ⟨eq_of_members_eq ha hkind hmembers, hrest⟩

/-- The walks through members are read off any text, whatever the members. -/
theorem selfDelimiting_members (members : List (Option String × Json)) :
    SelfDelimiting walkMember .leave members :=
  selfDelimiting_walkMember fun _ _ _ _ _ => walk_append_inj

end Json

end Clearance
