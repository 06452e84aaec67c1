import Clearance.Proofs.Courses
import Clearance.Proofs.GuardedRoundTrip
import Clearance.Proofs.Text

/-!
# Trees that are the same

Sameness leaves the checkers out.  Trees that are the same are those with the same written form, and
those with the same text; and where both have been read with one registry the checkers are the same
as well, so that nothing can tell such trees apart.
-/

namespace Clearance

variable {κ β : Type}

/-! ## Values without the order of their entries -/

namespace Json

mutual

/-- Whether two values are the same, where the order of the entries of an object does not count. -/
def same : Json → Json → Bool
  | null, null => true
  | bool a, bool b => a == b
  | number a, number b => a == b
  | string a, string b => a == b
  | array items, array items' => sameItems items items'
  | object entries, object entries' =>
    entries.length == entries'.length && sameEntries entries entries'
  | _, _ => false

/-- Whether two lists of items are the same, one by one. -/
def sameItems : List Json → List Json → Bool
  | [], [] => true
  | item :: rest, item' :: rest' => same item item' && sameItems rest rest'
  | _, _ => false

/-- Whether every one of these entries has its key among those, with the same value. -/
def sameEntries : List (String × Json) → List (String × Json) → Bool
  | [], _ => true
  | (key, value) :: rest, others =>
    (match others.lookup key with
      | some value' => same value value'
      | none => false) && sameEntries rest others

end

/-- Arrays are the same if their items are, one by one. -/
theorem sameItems_iff {items items' : List Json} :
    sameItems items items' = true ↔ List.Forall₂ (fun a b => a.same b = true) items items' := by
  induction items generalizing items' with
  | nil => cases items' <;> simp [sameItems]
  | cons item rest ih => cases items' <;> simp [sameItems, ih]

/-- Objects of one entry are the same if the keys are equal and the values are the same. -/
theorem same_single_iff {key key' : String} {value value' : Json} :
    (object [(key, value)]).same (object [(key', value')]) = true ↔
      key = key' ∧ value.same value' = true := by
  by_cases hkey : key = key'
  · simp [same, sameEntries, hkey]
  · simp [same, sameEntries, List.lookup_cons, beq_eq_false_iff_ne.2 hkey, hkey]

end Json

/-! ## Written forms -/

/-- Two trees are the same exactly if their written forms are the same values. -/
theorem Tree.same_toJson_iff {a b : Tree κ} :
    a.toJson.same b.toJson = true ↔ a.same b = true := by
  induction a using Tree.induction generalizing b with
  | constant value => cases b <;> simp [same, toJson, Json.same]
  | permission type value checker =>
      cases b with
      | constant value' => simp [same, toJson, Json.same]
      | permission type' value' checker' =>
          rw [toJson, toJson, Json.same_single_iff]
          simp [same, Json.same]
      | gate g inputs =>
          rw [toJson, toJson, Json.same_single_iff]
          simp [same, Json.same]
  | gate g inputs ih =>
      cases b with
      | constant value => simp [same, toJson, Json.same]
      | permission type value checker =>
          rw [toJson, toJson, Json.same_single_iff]
          simp [same, Json.same]
      | gate g' inputs' =>
          have hgates : g.keyword = g'.keyword ↔ g = g' :=
            ⟨keyword_injective, fun h => by rw [h]⟩
          have hinputs : Json.sameItems (inputs.map toJson) (inputs'.map toJson) = true ↔
              sameEach inputs inputs' = true := by
            rw [Json.sameItems_iff, List.forall₂_map_left_iff, List.forall₂_map_right_iff,
              sameEach_iff]
            exact forall₂_congr_of_mem fun input hinput b => ih input hinput
          rw [toJson, toJson, Json.same_single_iff, hgates, Json.same, toJsonEach_eq_map,
            toJsonEach_eq_map, hinputs]
          simp [same]

namespace GuardedTree

/-- A relation between written forms that is sameness of trees is sameness of guarded trees, if it
relates restricted forms part by part and no restricted form to that of a tree by itself. -/
theorem same_iff_of_forms {R : Json → Json → Prop}
    (htrees : ∀ a b : Tree κ, R a.toJson b.toJson ↔ a.same b = true)
    (hparts : ∀ main main' noBypass noBypass' : Tree κ,
      R (toJson ⟨main, some noBypass⟩) (toJson ⟨main', some noBypass'⟩) ↔
        R main.toJson main'.toJson ∧ R noBypass.toJson noBypass'.toJson)
    (hmixed : ∀ tree main noBypass : Tree κ, ¬ R tree.toJson (toJson ⟨main, some noBypass⟩) ∧
      ¬ R (toJson ⟨main, some noBypass⟩) tree.toJson) (a b : GuardedTree κ) :
    R a.toJson b.toJson ↔ a.same b = true := by
  obtain ⟨main, noBypass⟩ := a
  obtain ⟨main', noBypass'⟩ := b
  cases noBypass with
  | none =>
      cases noBypass' with
      | none => exact (htrees main main').trans same_none_iff.symm
      | some noBypass' =>
          have hsame : GuardedTree.same ⟨main, none⟩ ⟨main', some noBypass'⟩ = false :=
            Bool.and_false _
          rw [hsame]
          exact iff_of_false (hmixed main main' noBypass').1 Bool.false_ne_true
  | some noBypass =>
      cases noBypass' with
      | none =>
          have hsame : GuardedTree.same ⟨main, some noBypass⟩ ⟨main', none⟩ = false :=
            Bool.and_false _
          rw [hsame]
          exact iff_of_false (hmixed main' main noBypass).2 Bool.false_ne_true
      | some noBypass' => rw [hparts, htrees, htrees, same_some_iff]

/-- Two guarded trees are the same exactly if they have the same written form. -/
theorem same_iff_toJson_eq {a b : GuardedTree κ} : a.same b = true ↔ a.toJson = b.toJson := by
  refine (same_iff_of_forms (fun a b => Tree.same_iff_toJson_eq.symm) ?_ ?_ a b).symm
  · intro main main' noBypass noBypass'
    simp [toJson, and_comm]
  · intro tree main noBypass
    cases tree <;> simp [toJson, Tree.toJson]

/-- Two guarded trees are the same exactly if their written forms are the same values. -/
theorem same_toJson_iff {a b : GuardedTree κ} :
    a.toJson.same b.toJson = true ↔ a.same b = true := by
  refine same_iff_of_forms (R := fun form form' => form.same form' = true)
    (fun a b => Tree.same_toJson_iff) ?_ ?_ a b
  · intro main main' noBypass noBypass'
    simp [toJson, Json.same, Json.sameEntries, List.lookup_cons, Keyword.noBypass, and_comm]
  · intro tree main noBypass
    cases tree <;> simp [toJson, Tree.toJson, Json.same]

end GuardedTree

/-! ## Texts -/

namespace Json

/-- What is required of values that are read back from their texts: they hold no number, and no
object in them repeats a key. -/
structure Plain (value : Json) : Prop where
  numbers : value.Everywhere fun part => part.kind ≠ .number
  keys : value.Everywhere KeysDiffer

/-- A plain value is determined by its text. -/
theorem render_eq_iff {a b : Json} (ha : a.Plain) (hb : b.Plain) : a.render = b.render ↔ a = b := by
  constructor
  · intro h
    -- both texts are read with a limit that neither value exceeds
    have hreada := ofText?_render ha.numbers ha.keys (max a.nesting b.nesting)
    have hreadb := ofText?_render hb.numbers hb.keys (max a.nesting b.nesting)
    rw [if_pos (Nat.le_max_left _ _)] at hreada
    rw [if_pos (Nat.le_max_right _ _)] at hreadb
    rw [h, hreadb] at hreada
    exact (Option.some.inj hreada).symm
  · exact fun h => by rw [h]

/-- A value that is neither a collection nor a number is plain. -/
theorem plain_scalar {value : Json} (hscalar : value.isCollection = false)
    (hkind : value.kind ≠ .number) : value.Plain := by
  refine ⟨(everywhere_scalar_iff hscalar).2 hkind, (everywhere_scalar_iff hscalar).2 ?_⟩
  cases value with
  | object entries => cases hscalar
  | null | bool b | number n | string s | array items => trivial

/-- An array of plain values is plain. -/
theorem plain_array {items : List Json} (h : ∀ item ∈ items, item.Plain) : (array items).Plain where
  numbers := everywhere_array_iff.2 ⟨by simp [kind], fun item hitem => (h item hitem).numbers⟩
  keys := everywhere_array_iff.2 ⟨trivial, fun item hitem => (h item hitem).keys⟩

/-- An object of plain values whose keys differ is plain. -/
theorem plain_object {entries : List (String × Json)} (hkeys : (entries.map Prod.fst).Nodup)
    (h : ∀ keyed ∈ entries, keyed.2.Plain) : (object entries).Plain where
  numbers := everywhere_object_iff.2 ⟨by simp [kind], fun keyed hkeyed => (h keyed hkeyed).numbers⟩
  keys := everywhere_object_iff.2 ⟨hkeys, fun keyed hkeyed => (h keyed hkeyed).keys⟩

end Json

/-- The written form of a tree is plain, whatever texts stand in it. -/
theorem Tree.plain_toJson (tree : Tree κ) : tree.toJson.Plain := by
  induction tree using Tree.induction with
  | constant value =>
      rw [toJson]
      exact Json.plain_scalar rfl (by simp [Json.kind])
  | permission type value checker =>
      have hvalue : (Json.string value).Plain := Json.plain_scalar rfl (by simp [Json.kind])
      rw [toJson]
      exact Json.plain_object (by simp) (List.forall_mem_singleton.2 hvalue)
  | gate g inputs ih =>
      have hinputs : (Json.array (inputs.map toJson)).Plain :=
        Json.plain_array (List.forall_mem_map.2 ih)
      rw [toJson, toJsonEach_eq_map]
      exact Json.plain_object (by simp) (List.forall_mem_singleton.2 hinputs)

/-- The written form of a guarded tree is plain: the keyword of the restriction is no position. -/
theorem GuardedTree.plain_toJson (tree : GuardedTree κ) : tree.toJson.Plain := by
  obtain ⟨main, noBypass⟩ := tree
  cases noBypass with
  | none => exact main.plain_toJson
  | some noBypass =>
      refine Json.plain_object (by simp [Keyword.noBypass]) ?_
      exact List.forall_mem_cons.2
        ⟨noBypass.plain_toJson, List.forall_mem_singleton.2 main.plain_toJson⟩

/-- **The text identifies the tree.**  Two trees have the same text exactly if they are the same,
and so have two guarded trees; their gates may have any number of inputs, and their types and
permissions may be any texts. -/
theorem render_eq_iff_same :
    (∀ a b : Tree κ, a.render = b.render ↔ a.same b = true) ∧
      ∀ a b : GuardedTree κ, a.render = b.render ↔ a.same b = true := by
  constructor
  · intro a b
    rw [Tree.same_iff_toJson_eq]
    exact Json.render_eq_iff a.plain_toJson b.plain_toJson
  · intro a b
    rw [GuardedTree.same_iff_toJson_eq]
    exact Json.render_eq_iff a.plain_toJson b.plain_toJson

/-! ## Decisions -/

/-- Trees that are the same and carry the checkers of one registry are equal. -/
theorem Tree.eq_of_same_of_bound {registry : Registry κ} {a b : Tree κ} (h : a.same b = true)
    (ha : a.Bound registry) (hb : b.Bound registry) : a = b := by
  induction a using Tree.induction generalizing b with
  | constant value => cases b <;> simp_all [same]
  | permission type value checker =>
      cases b with
      | constant value' => simp [same] at h
      | gate g inputs => simp [same] at h
      | permission type' value' checker' =>
          obtain ⟨rfl, rfl⟩ : type = type' ∧ value = value' := by simpa [same] using h
          have hget : registry.get? type = some checker := forall_mem_nodes_permission.1 ha
          have hget' : registry.get? type = some checker' := forall_mem_nodes_permission.1 hb
          rw [hget] at hget'
          rw [Option.some.inj hget']
  | gate g inputs ih =>
      cases b with
      | constant value => simp [same] at h
      | permission type value checker => simp [same] at h
      | gate g' inputs' =>
          obtain ⟨rfl, hsame⟩ : g = g' ∧ sameEach inputs inputs' = true := by
            simpa [same] using h
          have hinputs := (forall_mem_nodes_gate.1 ha).2
          have hinputs' := (forall_mem_nodes_gate.1 hb).2
          have hpairs : List.Forall₂ (fun a b => a.same b = true) inputs inputs' :=
            sameEach_iff.1 hsame
          have heq : List.Forall₂ (fun a b => a = b) inputs inputs' := by
            refine List.forall₂_iff_zip.2 ⟨hpairs.length_eq, fun {input input'} hmem => ?_⟩
            obtain ⟨hinput, hinput'⟩ := List.of_mem_zip hmem
            exact ih input hinput (List.forall₂_zip hpairs hmem) (hinputs input hinput)
              (hinputs' input' hinput')
          rw [List.forall₂_eq_eq_eq] at heq
          rw [heq]

/-- Guarded trees that are the same and carry the checkers of one registry are equal. -/
theorem GuardedTree.eq_of_same_of_bound {registry : Registry κ} {a b : GuardedTree κ}
    (h : a.same b = true) (ha : a.Both (Tree.Bound registry)) (hb : b.Both (Tree.Bound registry)) :
    a = b := by
  obtain ⟨main, noBypass⟩ := a
  obtain ⟨main', noBypass'⟩ := b
  rw [GuardedTree.same, Bool.and_eq_true] at h
  have hmain : main = main' := Tree.eq_of_same_of_bound h.1 ha.1 hb.1
  cases noBypass with
  | none =>
      cases noBypass' with
      | none => rw [hmain]
      | some noBypass' => simp [sameNoBypass] at h
  | some noBypass =>
      cases noBypass' with
      | none => simp [sameNoBypass] at h
      | some noBypass' =>
          rw [hmain, Tree.eq_of_same_of_bound h.2 (ha.2 noBypass rfl) (hb.2 noBypass' rfl)]

namespace Expression

/-- **Trees that are the same decide alike.**  Two expressions may be read with one registry as
guarded trees that are the same.  Then a check comes to the same result on both, and so does a
report, in every application and from every state of it, with the same calls in the same order;
whatever the bypass checker, the context and whether the bypass is allowed.  Two such trees are the
same exactly if they have the same written form, also where the order of the entries of an object
does not count. -/
theorem same_trees_decide_alike {registry : Registry κ} {raw raw' : Json} {a b : GuardedTree κ}
    (ha : readGuarded registry raw = .ok a) (hb : readGuarded registry raw' = .ok b) :
    (a.same b = true → ∀ {m : Type → Type} [Monad m] (host : Host κ β m) (bypass : Option β)
      (context : Json) (allowBypass : Bool),
        Access.check host bypass a context allowBypass =
          Access.check host bypass b context allowBypass ∧
        Access.check host.recording bypass a context allowBypass =
          Access.check host.recording bypass b context allowBypass ∧
        Access.report host bypass a context allowBypass =
          Access.report host bypass b context allowBypass ∧
        Access.report host.recording bypass a context allowBypass =
          Access.report host.recording bypass b context allowBypass) ∧
    (a.same b = true ↔ a.toJson = b.toJson) ∧
    (a.same b = true ↔ a.toJson.same b.toJson = true) := by
  refine ⟨?_, GuardedTree.same_iff_toJson_eq, GuardedTree.same_toJson_iff.symm⟩
  intro hsame m hmonad host bypass context allowBypass
  rw [GuardedTree.eq_of_same_of_bound hsame (bound_of_readGuarded ha) (bound_of_readGuarded hb)]
  exact ⟨rfl, rfl, rfl, rfl⟩

/-- Two spellings of one guarded tree are checked alike, call by call, also where the answers change
from call to call; the permissions in another order are another tree. -/
theorem same_trees_decide_alike_spellings :
    let raw : Json := .object [("role", .array [.string "a", .string "b"]),
      ("no_bypass", .object [("role", .string "c")])]
    let raw' : Json := .object [("NO_BYPASS", .object [("role", .array [.string "c"])]),
      ("0", .object [("role", .string "a")]), ("1", .object [("role", .string "b")])]
    let turned : Json := .object [("role", .array [.string "b", .string "a"]),
      ("no_bypass", .object [("role", .string "c")])]
    ∃ a b c, readGuarded .roles raw = .ok a ∧ readGuarded .roles raw' = .ok b ∧
      readGuarded .roles turned = .ok c ∧
      (∀ context allowBypass,
        Access.check Access.alternating.recording (some ()) a context allowBypass =
          Access.check Access.alternating.recording (some ()) b context allowBypass) ∧
      a.toJson = b.toJson ∧ a.toJson.same c.toJson = false := by
  intro raw raw' turned
  let role : String → Tree Unit := fun value => .permission "role" value ()
  let a : GuardedTree Unit := ⟨.gate .or [role "a", role "b"], some (role "c")⟩
  let c : GuardedTree Unit := ⟨.gate .or [role "b", role "a"], some (role "c")⟩
  have ha : readGuarded .roles raw = .ok a := rfl
  have hb : readGuarded .roles raw' = .ok a := rfl
  have hc : readGuarded .roles turned = .ok c := rfl
  have hsame : a.same a = true := by decide
  have hother : ¬ a.same c = true := by decide
  obtain ⟨hdecide, hforms, -⟩ := same_trees_decide_alike (β := Unit) ha hb
  obtain ⟨-, -, hvalues⟩ := same_trees_decide_alike (β := Unit) ha hc
  refine ⟨a, a, c, ha, hb, hc, ?_, hforms.1 hsame, ?_⟩
  · intro context allowBypass
    exact (hdecide hsame Access.alternating (some ()) context allowBypass).2.1
  · exact Bool.eq_false_iff.2 (mt hvalues.2 hother)

end Expression

end Clearance
