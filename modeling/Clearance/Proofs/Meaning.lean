import Clearance.Proofs.Calls
import Clearance.Proofs.Canonical

/-!
# What expressions mean

The meaning of an expression, taken from its values alone: no tree is built, no collection is
flattened, and each gate runs its own loop.  The tree that is read has this meaning, down to the
order of the questions.
-/

namespace Clearance

variable {κ : Type} {m : Type → Type} [Monad m]

namespace Expression

/-! ## The direct meaning -/

section Meaning

variable (answer : String → String → m Bool)

/-- The meaning of a value that is no collection: a constant, or the answer for a permission of the
type in scope.  Nothing else occurs in an expression. -/
def meaningOfScalar (type : Option String) : Json → m Bool
  | .bool b => pure b
  | .string s =>
    match constantOfWord? s with
    | some b => pure b
    | none =>
      match type with
      | some name => answer name s
      | none => pure false
  | _ => pure false

mutual

/-- The meaning of a value that stands for one decision; a collection is a disjunction. -/
def meaningOfValue (type : Option String) : Json → m Bool
  | .array items => Gate.untilTrue (meaningsOfItems type items)
  | .object entries => Gate.untilTrue (meaningsOfEntries type entries)
  | value => meaningOfScalar answer type value

/-- The inputs that the value of a gate gives. -/
def meaningsOfInputs (type : Option String) : Json → List (m Bool)
  | .array items => meaningsOfItems type items
  | .object entries => meaningsOfEntries type entries
  | value => [meaningOfScalar answer type value]

/-- The meaning of each item. -/
def meaningsOfItems (type : Option String) : List Json → List (m Bool)
  | [] => []
  | item :: rest => meaningOfValue type item :: meaningsOfItems type rest

/-- The meaning of each entry: a gate runs its loop, a type is that of the permissions below it, and
a position means nothing. -/
def meaningsOfEntries (type : Option String) : List (String × Json) → List (m Bool)
  | [] => []
  | (key, value) :: rest =>
    (match Key.ofText key with
      | .gate g => g.loop (meaningsOfInputs type value)
      | .type name => meaningOfValue (some name) value
      | _ => meaningOfValue type value) :: meaningsOfEntries type rest

end

/-- The meaning of an expression.  An empty collection grants access. -/
def meaning : Json → m Bool
  | .array [] => pure true
  | .object [] => pure true
  | value => meaningOfValue answer none value

end Meaning

/-! ## The meaning of members -/

section Members

variable {answer : String → String → m Bool} {type : Option String}

/-- The meaning of an entry. -/
def meaningOfEntry (answer : String → String → m Bool) (type : Option String)
    (entry : String × Json) : m Bool :=
  match Key.ofText entry.1 with
  | .gate g => g.loop (meaningsOfInputs answer type entry.2)
  | .type name => meaningOfValue answer (some name) entry.2
  | _ => meaningOfValue answer type entry.2

/-- A word for a constant means the constant. -/
theorem meaningOfScalar_constant {s : String} {b : Bool} (hword : constantOfWord? s = some b) :
    meaningOfScalar answer type (.string s) = pure b := by
  simp [meaningOfScalar, hword]

/-- Any other text under a type means what the checker of the type answers. -/
theorem meaningOfScalar_permission {s name : String} (htext : IsPermissionText s) :
    meaningOfScalar answer (some name) (.string s) = answer name s := by
  simp [meaningOfScalar, constantOfWord?_eq_none_iff.2 htext.2]

/-- Items have their meanings each by itself. -/
theorem meaningsOfItems_eq_map (items : List Json) :
    meaningsOfItems answer type items = items.map (meaningOfValue answer type) := by
  induction items with
  | nil => rfl
  | cons item rest ih => rw [meaningsOfItems, ih, List.map_cons]

/-- Entries have their meanings each by itself. -/
theorem meaningsOfEntries_eq_map (entries : List (String × Json)) :
    meaningsOfEntries answer type entries = entries.map (meaningOfEntry answer type) := by
  induction entries with
  | nil => rfl
  | cons entry rest ih =>
      rw [meaningsOfEntries, ih, List.map_cons]
      rfl

/-- A value stands for the disjunction of its inputs. -/
theorem meaningOfValue_eq_untilTrue [LawfulMonad m] (value : Json) :
    meaningOfValue answer type value = Gate.untilTrue (meaningsOfInputs answer type value) := by
  cases value with
  | array items => rw [meaningOfValue, meaningsOfInputs]
  | object entries => rw [meaningOfValue, meaningsOfInputs]
  | null | bool b | number n | string s =>
      simp only [meaningOfValue, meaningsOfInputs, Gate.untilTrue_singleton]

/-- An expression that is no empty collection means what its value stands for. -/
theorem meaning_eq_meaningOfValue {raw : Json} (hempty : ¬ (raw = .array [] ∨ raw = .object [])) :
    meaning answer raw = meaningOfValue answer none raw := by
  unfold meaning
  split <;> simp_all

end Members

end Expression

/-! ## Gates that are left out -/

namespace Tree

/-- A joined tree runs the loop of the gate over its inputs, whether or not the gate is left out. -/
theorem eval_joined [LawfulMonad m] {g : Gate} {inputs : List (Tree κ)}
    (hadmits : g.admits inputs.length = true) (ask : Asking κ m) (context : Json) :
    (joined g inputs).eval ask context = g.loop (inputs.map (eval ask context)) := by
  rcases joined_cases g inputs with hcompact | ⟨hg, only, rfl⟩
  · rw [joined_eq_gate hcompact, eval, evalEach_eq_map, Gate.run_eq_loop (by simpa using hadmits)]
  · -- where the gate is left out, its loop over the only input is that input
    rw [joined_singleton hg, List.map_singleton]
    rcases hg with rfl | rfl
    · rw [Gate.loop, Gate.untilFalse_singleton]
    · rw [Gate.loop, Gate.untilTrue_singleton]

/-- Joining labelled trees labels the joined tree. -/
theorem labelled_joined (g : Gate) (inputs : List (Tree κ)) :
    (joined g inputs).labelled = joined g (inputs.map labelled) := by
  rcases joined_cases g inputs with hcompact | ⟨hg, only, rfl⟩
  · have hlabelled : g = .and ∨ g = .or → (inputs.map labelled).length ≠ 1 := by
      rwa [List.length_map]
    rw [joined_eq_gate hcompact, joined_eq_gate hlabelled, labelled, labelledEach_eq_map]
  · rw [joined_singleton hg, List.map_singleton, joined_singleton hg]

end Tree

/-! ## Trees have the meaning of their expression -/

namespace Expression

section Trees

variable [LawfulMonad m] {registry : Registry κ} {ask : Asking (String × κ) m} {context : Json}
  {answer : String → String → m Bool}

/-- Joined siblings run the loop of the gate over their decisions. -/
theorem eval_of_join {g : Gate} {inputs : List (Tree κ)} {tree : Tree κ}
    (hjoin : Tree.join g inputs = .ok tree) :
    tree.labelled.eval ask context =
      g.loop (inputs.map fun input => input.labelled.eval ask context) := by
  obtain ⟨hadmits, rfl⟩ := Tree.join_eq_ok_iff.1 hjoin
  rw [Tree.labelled_joined, Tree.eval_joined (by simpa using hadmits), List.map_map]
  rfl

/-- What stands for one tree has the meaning of its value, if its siblings have theirs. -/
theorem eval_of_stands {scope : Scope κ} {value : Json} {tree : Tree κ}
    (hvalue : ∀ trees, Siblings registry scope value trees →
      trees.map (fun tree => tree.labelled.eval ask context) =
        meaningsOfInputs answer (scope.map Prod.fst) value)
    (h : Stands registry scope value tree) :
    tree.labelled.eval ask context = meaningOfValue answer (scope.map Prod.fst) value := by
  obtain ⟨inputs, hinputs, hjoin⟩ := h
  rw [meaningOfValue_eq_untilTrue, eval_of_join hjoin, hvalue inputs hinputs]
  rfl

/-- The tree of an entry has the meaning of the entry, if the siblings of its value have theirs. -/
theorem eval_of_entryStands {scope : Scope κ} {keyed : String × Json} {tree : Tree κ}
    (hscope : ScopeBound registry scope)
    (hvalue : ∀ scope trees, ScopeBound registry scope → Siblings registry scope keyed.2 trees →
      trees.map (fun tree => tree.labelled.eval ask context) =
        meaningsOfInputs answer (scope.map Prod.fst) keyed.2)
    (h : EntryStands registry scope keyed tree) :
    tree.labelled.eval ask context = meaningOfEntry answer (scope.map Prod.fst) keyed := by
  obtain ⟨reading, hkey, inputs, hinputs, hjoin⟩ := h
  have hmeaning := hvalue reading.scope inputs (scopeBound_of_keyRead hscope hkey) hinputs
  rw [eval_of_join hjoin, hmeaning, meaningOfEntry]
  -- a position and a type join by a disjunction, which is what a value means by itself
  rcases hkey with hkey | ⟨hkey, -⟩ | ⟨hkey, -, -⟩
  · rw [hkey]
    exact (meaningOfValue_eq_untilTrue keyed.2).symm
  · rw [hkey]
  · rw [hkey]
    exact (meaningOfValue_eq_untilTrue keyed.2).symm

/-- The siblings of a value have the meanings of the inputs that it gives. -/
theorem eval_of_siblings
    (hask : ∀ name checker s, registry.get? name = some checker →
      ask (name, checker) s context = answer name s)
    {scope : Scope κ} {value : Json} {trees : List (Tree κ)} (hscope : ScopeBound registry scope)
    (h : Siblings registry scope value trees) :
    trees.map (fun tree => tree.labelled.eval ask context) =
      meaningsOfInputs answer (scope.map Prod.fst) value := by
  induction value using Json.induction generalizing scope trees with
  | null => exact absurd h not_siblings_null
  | bool b =>
      obtain ⟨-, rfl⟩ := siblings_bool_iff.1 h
      rfl
  | number n => exact absurd h not_siblings_number
  | string s =>
      obtain ⟨tree, htree, rfl⟩ := siblings_string_iff.1 h
      show [_] = [meaningOfScalar answer (scope.map Prod.fst) (.string s)]
      congr 1
      rcases htree with hword | ⟨htext, rfl⟩
      · rw [meaningOfScalar_constant hword]
        rfl
      · exact (hask _ _ s (hscope _ _ rfl)).trans (meaningOfScalar_permission htext).symm
  | array items ih =>
      have hitems : ∀ item ∈ items, ∀ tree, Stands registry scope item tree →
          meaningOfValue answer (scope.map Prod.fst) item = tree.labelled.eval ask context :=
        fun item hitem tree htree =>
          (eval_of_stands (fun _ hread => ih item hitem hscope hread) htree).symm
      rw [meaningsOfInputs, meaningsOfItems_eq_map]
      exact (forall₂_eq_iff_map_eq.1 (forall₂_imp_of_mem hitems (siblings_array_iff.1 h))).symm
  | object entries ih =>
      have hentries : ∀ keyed ∈ entries, ∀ tree, EntryStands registry scope keyed tree →
          meaningOfEntry answer (scope.map Prod.fst) keyed = tree.labelled.eval ask context :=
        fun keyed hkeyed tree htree => (eval_of_entryStands hscope
          (fun _ _ hbound hread => ih keyed hkeyed hbound hread) htree).symm
      rw [meaningsOfInputs, meaningsOfEntries_eq_map]
      exact (forall₂_eq_iff_map_eq.1 (forall₂_imp_of_mem hentries (siblings_object_iff.1 h))).symm

/-- The labelled tree of an expression has the meaning of the expression. -/
theorem eval_labelled_of_read
    (hask : ∀ name checker s, registry.get? name = some checker →
      ask (name, checker) s context = answer name s)
    {raw : Json} {tree : Tree κ} (hread : read registry raw = .ok tree) :
    tree.labelled.eval ask context = meaning answer raw := by
  rcases read_eq_ok_iff.1 hread with ⟨hempty, rfl⟩ | ⟨-, hstands⟩
  · rcases hempty with rfl | rfl <;> rfl
  · have hempty : ¬ (raw = .array [] ∨ raw = .object []) := fun h => not_stands_empty h hstands
    rw [meaning_eq_meaningOfValue hempty]
    exact eval_of_stands (fun _ hread => eval_of_siblings hask (scopeBound_none registry) hread)
      hstands

end Trees

/-- What the checker of a type answers; a type that is not registered does not occur in an
expression. -/
def answerOf (registry : Registry κ) (ask : Asking κ m) (context : Json) (type value : String) :
    m Bool :=
  match registry.get? type with
  | some checker => ask checker value context
  | none => pure false

/-- A tree that has been read is decided as the expression means, whatever the checkers do, and with
the same calls in the same order. -/
theorem eval_eq_meaning [LawfulMonad m] {registry : Registry κ} {raw : Json} {tree : Tree κ}
    (hread : read registry raw = .ok tree) (ask : Asking κ m) (context : Json) :
    tree.eval ask context = meaning (answerOf registry ask context) raw ∧
      tree.evalNoting ask context =
        meaning (fun type value => noting type value (answerOf registry ask context type value))
          raw := by
  have hanswer : ∀ name checker s, registry.get? name = some checker →
      ask checker s context = answerOf registry ask context name s := by
    intro name checker s hget
    rw [answerOf, hget]
  constructor
  · rw [← Tree.eval_labelled]
    exact eval_labelled_of_read hanswer hread
  · refine eval_labelled_of_read ?_ hread
    intro name checker s hget
    rw [hanswer name checker s hget]

/-- A checker that refuses and grants by turns. -/
def byTurns : Asking Unit (StateM Nat) := fun _ _ _ => modifyGet fun n => (n % 2 == 1, n + 1)

/-- Of three roles that are asked by turns, the second one grants access and the third is not asked
for. -/
theorem eval_eq_meaning_by_turns :
    ∃ raw tree, read Registry.roles raw = .ok tree ∧
      tree.eval byTurns .null = meaning (answerOf Registry.roles byTurns .null) raw ∧
      (tree.evalNoting byTurns .null).run [] 0 = ((true, [("role", "a"), ("role", "b")]), 2) := by
  have hread : read Registry.roles
      (.object [("role", .object [("or", .array [.string "a", .string "b", .string "c"])])]) =
      .ok (.gate .or [.permission "role" "a" (), .permission "role" "b" (),
        .permission "role" "c" ()]) := rfl
  have hmeaning := eval_eq_meaning hread byTurns .null
  exact ⟨_, _, hread, hmeaning.1, by rw [hmeaning.2]; rfl⟩

end Expression

end Clearance
