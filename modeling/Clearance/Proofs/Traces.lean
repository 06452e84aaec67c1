import Clearance.Proofs.Courses

/-!
# Traces

A trace has one record for each node of a tree, each before those of its inputs, and puts them behind
the records of earlier traces.  Every record stands at the place that was kept for its node: it shows
the answer of the one call that a permission takes, or what a gate makes of the values recorded for
its own inputs.
-/

namespace Clearance

variable {κ β σ : Type}

/-- A place in the middle of a list is filled in without changing the others. -/
theorem modify_middle {α : Type} (before : List α) (a : α) (after : List α) (f : α → α) :
    (before ++ a :: after).modify before.length f = before ++ f a :: after := by
  induction before with
  | nil => rfl
  | cons first rest ih => exact congrArg (first :: ·) ih

namespace Tree

/-! ## Records behind earlier ones -/

section Onto

variable {m : Type → Type} [Monad m] [LawfulMonad m]

/-- If a decision puts its records behind any earlier ones, then around it the record of the node
comes before them. -/
theorem run_recordAround {α : Type} {x : m α} {value : α → Bool} {records : α → List Record}
    {decision : StateT (List Record) m Bool}
    (hdecision : ∀ earlier, decision.run earlier =
      x >>= fun a => pure (value a, earlier ++ records a)) (tree : Tree κ)
    (earlier : List Record) :
    (recordAround tree decision).run earlier =
      x >>= fun a => pure (value a, earlier ++ ⟨value a, tree.toJson⟩ :: records a) := by
  have hplaced : (recordAround tree decision).run earlier =
      decision.run (earlier ++ [⟨false, tree.toJson⟩]) >>= fun decided =>
        pure (decided.1, decided.2.modify earlier.length fun record =>
          { record with value := decided.1 }) := by
    simp [recordAround]
  rw [hplaced, hdecision, bind_assoc]
  congr 1
  funext a
  rw [pure_bind, List.append_assoc, List.singleton_append, modify_middle]

/-- The traces of trees are put behind earlier records, one after the other. -/
theorem run_traceEachOnto (ask : Asking κ m) (context : Json) {trees : List (Tree κ)}
    (htrees : ∀ tree ∈ trees, ∀ earlier, (tree.traceOnto ask context).run earlier =
      tree.trace ask context >>= fun trace => pure (trace.value, earlier ++ trace.records))
    (earlier : List Record) :
    (traceEachOnto ask context trees).run earlier =
      traceEach ask context trees >>= fun traces =>
        pure (traces.map (·.value), earlier ++ traces.flatMap (·.records)) := by
  induction trees generalizing earlier with
  | nil => simp [traceEachOnto, traceEach]
  | cons tree rest ih =>
      rw [List.forall_mem_cons] at htrees
      have hrest := ih htrees.2
      simp [traceEachOnto, traceEach, htrees.1, hrest]

/-- A trace is put behind earlier records, which stay as they are. -/
theorem run_traceOnto (ask : Asking κ m) (context : Json) (tree : Tree κ)
    (earlier : List Record) :
    (tree.traceOnto ask context).run earlier =
      tree.trace ask context >>= fun trace => pure (trace.value, earlier ++ trace.records) := by
  induction tree using Tree.induction generalizing earlier with
  | constant value =>
      have hdecision : ∀ earlier, (pure value : StateT (List Record) m Bool).run earlier =
          pure value >>= fun value => pure (value, earlier ++ []) := by simp
      rw [traceOnto, run_recordAround hdecision]
      simp [trace, Trace.ofNode]
  | permission type value checker =>
      have hdecision : ∀ earlier,
          (liftM (ask checker value context) : StateT (List Record) m Bool).run earlier =
            ask checker value context >>= fun answer => pure (answer, earlier ++ []) := by simp
      rw [traceOnto, run_recordAround hdecision]
      simp [trace, Trace.ofNode]
  | gate g inputs ih =>
      have hdecision : ∀ earlier, (do
          return g.apply (← traceEachOnto ask context inputs) : StateT (List Record) m Bool).run
            earlier = traceEach ask context inputs >>= fun traces =>
              pure (g.apply (traces.map (·.value)), earlier ++ traces.flatMap (·.records)) := by
        simp [run_traceEachOnto ask context ih]
      rw [traceOnto, run_recordAround hdecision]
      simp [trace, Trace.ofNode]

end Onto

/-! ## Values of all nodes -/

/-- The question that a node asks by itself: only a permission asks one. -/
def question? (context : Json) : Tree κ → Option (Question κ β)
  | permission _ value checker => some (.permission checker value context)
  | constant _ | gate _ _ => none

/-- A node, and the value found for it. -/
structure Valued (κ : Type) where
  node : Tree κ
  value : Bool

namespace Valued

/-- The record of a node with its value. -/
def record (entry : Valued κ) : Record := ⟨entry.value, entry.node.toJson⟩

/-- The call that a node takes, its value being the answer. -/
def call? (context : Json) (entry : Valued κ) : Option (Call κ β) :=
  (entry.node.question? context).map fun question => ⟨question, entry.value⟩

end Valued

/-- The places of the inputs of a gate among its nodes, where the first input stands at `place`. -/
def inputPlaces : Nat → List (Tree κ) → List Nat
  | _, [] => []
  | place, input :: rest => place :: inputPlaces (place + input.size) rest

/-- A gate at a place has the value that its truth function gives for the values found at the places
of its inputs. -/
def Combines (found : List (Valued κ)) (place : Nat) (g : Gate) (inputs : List (Tree κ))
    (value : Bool) : Prop :=
  ∃ below : List (Valued κ),
    (inputPlaces (place + 1) inputs).map (fun place => found[place]?) = below.map some ∧
      below.map (·.node) = inputs ∧ value = g.truth (below.map (·.value))

/-- Every constant has its own value, and every gate the value that its inputs give. -/
structure Consistent (found : List (Valued κ)) : Prop where
  constant : ∀ own value, ⟨.constant own, value⟩ ∈ found → value = own
  gate : ∀ place g inputs value, found[place]? = some ⟨.gate g inputs, value⟩ →
    Combines found place g inputs value

/-- The values found for the nodes of a tree, each node before its inputs, the tree itself first. -/
structure Valuation (tree : Tree κ) (value : Bool) (found : List (Valued κ)) : Prop where
  nodes : found.map (·.node) = tree.nodes
  root : found.head? = some ⟨tree, value⟩
  consistent : Consistent found

/-! ### Places -/

/-- There are as many nodes as the size says. -/
theorem length_nodes (tree : Tree κ) : tree.nodes.length = tree.size := by
  induction tree using Tree.induction with
  | constant value => rfl
  | permission type value checker => rfl
  | gate g inputs ih =>
      have hinputs : ∀ trees : List (Tree κ), (∀ tree ∈ trees, tree.nodes.length = tree.size) →
          (nodesEach trees).length = sizeEach trees := by
        intro trees htrees
        induction trees with
        | nil => rfl
        | cons tree rest ih =>
            rw [List.forall_mem_cons] at htrees
            rw [nodesEach, sizeEach, List.length_append, htrees.1, ih htrees.2]
      rw [nodes, size, List.length_cons, hinputs inputs ih]

/-- The places move with the first of them. -/
theorem inputPlaces_add (first place : Nat) (inputs : List (Tree κ)) :
    inputPlaces (first + place) inputs = (inputPlaces place inputs).map (first + ·) := by
  induction inputs generalizing place with
  | nil => rfl
  | cons input rest ih =>
      rw [inputPlaces, inputPlaces, Nat.add_assoc, ih, List.map_cons]

/-- What a gate combines stays where it is when more is found later. -/
theorem Combines.append_right {found later : List (Valued κ)} {place : Nat} {g : Gate}
    {inputs : List (Tree κ)} {value : Bool} (h : Combines found place g inputs value) :
    Combines (found ++ later) place g inputs value := by
  obtain ⟨below, hplaces, hnodes, hvalue⟩ := h
  refine ⟨below, ?_, hnodes, hvalue⟩
  rw [← forall₂_eq_iff_map_eq] at hplaces ⊢
  refine hplaces.imp fun place entry hentry => ?_
  rw [List.getElem?_append_left (List.getElem?_eq_some_iff.1 hentry).1, hentry]

/-- What a gate combines moves with it when something is found before. -/
theorem Combines.append_left {found : List (Valued κ)} {place : Nat} {g : Gate}
    {inputs : List (Tree κ)} {value : Bool} (h : Combines found place g inputs value)
    (earlier : List (Valued κ)) :
    Combines (earlier ++ found) (earlier.length + place) g inputs value := by
  obtain ⟨below, hplaces, hnodes, hvalue⟩ := h
  refine ⟨below, ?_, hnodes, hvalue⟩
  rw [Nat.add_assoc, inputPlaces_add, List.map_map, ← hplaces]
  refine List.map_congr_left fun place _ => ?_
  show (earlier ++ found)[earlier.length + place]? = found[place]?
  rw [List.getElem?_append_right (by omega), Nat.add_sub_cancel_left]

/-- What is consistent by itself is consistent together. -/
theorem Consistent.append {earlier later : List (Valued κ)} (hearlier : Consistent earlier)
    (hlater : Consistent later) : Consistent (earlier ++ later) where
  constant own value hmem := by
    rcases List.mem_append.1 hmem with hmem | hmem
    · exact hearlier.constant own value hmem
    · exact hlater.constant own value hmem
  gate place g inputs value hentry := by
    by_cases hplace : place < earlier.length
    · rw [List.getElem?_append_left hplace] at hentry
      exact (hearlier.gate place g inputs value hentry).append_right
    · rw [List.getElem?_append_right (by omega)] at hentry
      have hcombines := (hlater.gate _ g inputs value hentry).append_left earlier
      rwa [show earlier.length + (place - earlier.length) = place by omega] at hcombines

/-- What is consistent part by part is consistent together. -/
theorem consistent_flatten {parts : List (List (Valued κ))}
    (hparts : ∀ part ∈ parts, Consistent part) : Consistent parts.flatten := by
  induction parts with
  | nil => exact ⟨by simp, by simp⟩
  | cons part rest ih =>
      rw [List.forall_mem_cons] at hparts
      exact hparts.1.append (ih hparts.2)

/-- The inputs of a gate stand where their parts begin. -/
theorem map_inputPlaces {inputs : List (Tree κ)} {parts : List (Bool × List (Valued κ))}
    (hparts : List.Forall₂ (fun input part => Valuation input part.1 part.2) inputs parts)
    (before : List (Valued κ)) :
    (inputPlaces before.length inputs).map
        (fun place => (before ++ parts.flatMap (·.2))[place]?) =
      ((inputs.zip parts).map fun entry => ⟨entry.1, entry.2.1⟩).map some := by
  induction hparts generalizing before with
  | nil => rfl
  | @cons input part rest others hpart _ ih =>
      have hlength : (before ++ part.2).length = before.length + input.size := by
        rw [List.length_append, ← length_nodes, ← hpart.nodes, List.length_map]
      have hfirst : (before ++ (part.2 ++ others.flatMap (·.2)))[before.length]? =
          some ⟨input, part.1⟩ := by
        obtain ⟨tail, htail⟩ := List.head?_eq_some_iff.1 hpart.root
        rw [List.getElem?_append_right (by omega), Nat.sub_self, htail]
        rfl
      have hrest := ih (before ++ part.2)
      rw [hlength, List.append_assoc] at hrest
      rw [inputPlaces, List.map_cons, List.flatMap_cons, hfirst, hrest]
      rfl

/-- The values for the inputs of a gate give those for the gate. -/
theorem valuation_gate {g : Gate} {inputs : List (Tree κ)} {parts : List (Bool × List (Valued κ))}
    (hparts : List.Forall₂ (fun input part => Valuation input part.1 part.2) inputs parts) :
    Valuation (gate g inputs) (g.truth (parts.map (·.1)))
      (⟨gate g inputs, g.truth (parts.map (·.1))⟩ :: parts.flatMap (·.2)) := by
  have hbelow : Consistent (parts.flatMap (·.2)) := by
    refine consistent_flatten fun part hpart => ?_
    obtain ⟨entry, hentry, rfl⟩ := List.mem_map.1 hpart
    obtain ⟨input, -, hvaluation⟩ := exists_mem_of_forall₂ hparts entry hentry
    exact hvaluation.consistent
  have hlength := hparts.length_eq
  refine ⟨?_, rfl, ?_, ?_⟩
  · have hnodes : inputs.map nodes = parts.map fun part => part.2.map (·.node) :=
      forall₂_eq_iff_map_eq.1 (hparts.imp fun input part h => h.nodes.symm)
    rw [nodes, nodesEach_eq_flatMap, List.map_cons, List.map_flatMap, List.flatMap_def,
      List.flatMap_def, hnodes]
  · intro own value hmem
    rcases List.mem_cons.1 hmem with heq | hmem
    · cases heq
    · exact hbelow.constant own value hmem
  · intro place g' inputs' value hentry
    cases place with
    | zero =>
        cases hentry
        have hplaces := fun root : Valued κ => map_inputPlaces hparts [root]
        refine ⟨_, hplaces _, ?_, ?_⟩
        · rw [List.map_map]
          exact List.map_fst_zip (Nat.le_of_eq hlength)
        · rw [List.map_map]
          have hvalues := congrArg (List.map Prod.fst) (List.map_snd_zip (Nat.le_of_eq hlength.symm))
          rw [List.map_map] at hvalues
          exact congrArg g.truth hvalues.symm
    | succ place =>
        have hcombines := (hbelow.gate place g' inputs' value hentry).append_left
          [⟨gate g inputs, g.truth (parts.map (·.1))⟩]
        rwa [List.length_singleton, Nat.add_comm] at hcombines

/-! ## The course of a trace -/

/-- The nodes of a tree ask the questions for its permissions, from left to right. -/
theorem filterMap_question?_nodes (context : Json) (tree : Tree κ) :
    tree.nodes.filterMap (question? (β := β) context) = tree.questions context := by
  induction tree using Tree.induction with
  | constant value => rfl
  | permission type value checker => rfl
  | gate g inputs ih =>
      rw [nodes, nodesEach_eq_flatMap, questions, questionsEach_eq_flatMap,
        List.filterMap_cons_none rfl, List.filterMap_flatMap]
      exact List.flatMap_congr ih

/-- The calls that are found ask the questions for the permissions of the tree. -/
theorem questions_of_valuation {tree : Tree κ} {value : Bool} {found : List (Valued κ)}
    (h : Valuation tree value found) (context : Json) :
    (found.filterMap (Valued.call? context)).map (fun call : Call κ β => call.question) =
      tree.questions context := by
  have hquestions : (found.filterMap (Valued.call? context)).map
      (fun call : Call κ β => call.question) = (found.map (·.node)).filterMap (question? context) := by
    rw [List.map_filterMap, List.filterMap_map]
    congr 1
    funext entry
    show ((entry.node.question? context).map _).map _ = entry.node.question? context
    rw [Option.map_map]
    exact congrFun Option.map_id _
  rw [hquestions, h.nodes, filterMap_question?_nodes]

/-- Every node of a tree gets its value, whatever the state of the application. -/
theorem exists_course_valuation (host : Host κ β (StateM σ)) (context : Json) (tree : Tree κ)
    (s : σ) :
    ∃ (found : Bool × List (Valued κ)) (s' : σ), Valuation tree found.1 found.2 ∧
      Course (tree.trace host.ask context) (tree.trace host.recording.ask context) s
        (found.2.filterMap (Valued.call? context)) ⟨found.1, found.2.map Valued.record⟩ s' := by
  induction tree using Tree.induction generalizing s with
  | constant value =>
      refine ⟨(value, [⟨.constant value, value⟩]), s, ⟨rfl, rfl, ?_⟩, course_pure _ s⟩
      exact ⟨by simp, by intro place; cases place <;> simp⟩
  | permission type value checker =>
      obtain ⟨answer, s', hcourse⟩ := exists_course_ask host checker value context s
      refine ⟨(answer, [⟨.permission type value checker, answer⟩]), s', ⟨rfl, rfl, ?_⟩,
        hcourse.map _⟩
      exact ⟨by simp, by intro place; cases place <;> simp⟩
  | gate g inputs ih =>
      obtain ⟨parts, s', hparts, hcourse⟩ := exists_course_traceEach host ih s
      have hvalue : g.apply ((parts.map fun part => (⟨part.1, part.2.map Valued.record⟩ : Trace)).map
          (·.value)) = g.truth (parts.map (·.1)) := by
        rw [List.map_map, Gate.apply_eq_truth]
        rfl
      have hrecords : (parts.map fun part => (⟨part.1, part.2.map Valued.record⟩ : Trace)).flatMap
          (·.records) = (parts.flatMap (·.2)).map Valued.record := by
        rw [List.flatMap_map, List.map_flatMap]
      have hgate := hcourse.map fun traces =>
        Trace.ofNode (gate g inputs) (g.apply (traces.map (·.value))) (traces.flatMap (·.records))
      rw [hvalue, hrecords, ← List.filterMap_flatMap] at hgate
      exact ⟨(_, _), s', valuation_gate hparts, hgate⟩

/-- If every answer depends on the question alone, the record of a node shows the value that the node
is decided with. -/
theorem records_trace (ask : Asking κ Id) (context : Json) (tree : Tree κ) :
    (tree.trace ask context : Trace).records =
      tree.nodes.map fun node => ⟨node.eval ask context, node.toJson⟩ := by
  induction tree using Tree.induction with
  | constant value => rfl
  | permission type value checker => rfl
  | gate g inputs ih =>
      have hroot : (trace ask context (gate g inputs) : Trace).records =
          ⟨(trace ask context (gate g inputs) : Trace).value, (gate g inputs).toJson⟩ ::
            (traceEach ask context inputs : List Trace).flatMap (·.records) := rfl
      rw [hroot, value_trace, traceEach_eq_map, List.flatMap_map, List.flatMap_congr ih, nodes,
        nodesEach_eq_flatMap, List.map_cons, List.map_flatMap]

/-- **A trace records every node of a tree once, each before its inputs.**  The records so far stay as
they are; as many as the tree has nodes are put behind them, each with the written form of its node.
Every permission is called for once, from left to right, and recorded with the answer of that call; a
gate is recorded with what its truth function makes of the values recorded for its own inputs; and the
first value is that of the tree.  Where the answers depend on the question alone, each node is recorded
with the value that it is decided with. -/
theorem trace_records_all_nodes (host : Host κ β (StateM σ)) (context : Json) (tree : Tree κ)
    (earlier : List Record) :
    (∀ s, ∃ (value : Bool) (found : List (Valued κ)) (s' : σ), Valuation tree value found ∧
      found.length = tree.size ∧
      (found.filterMap (Valued.call? context)).map (fun call : Call κ β => call.question) =
        tree.questions context ∧
      Course ((tree.traceOnto host.ask context).run earlier)
        ((tree.traceOnto host.recording.ask context).run earlier) s
        (found.filterMap (Valued.call? context)) (value, earlier ++ found.map Valued.record) s') ∧
    ∀ ask : Asking κ Id, (tree.traceOnto ask context).run earlier =
      (tree.eval ask context,
        earlier ++ tree.nodes.map fun node => ⟨node.eval ask context, node.toJson⟩) := by
  constructor
  · intro s
    obtain ⟨⟨value, found⟩, s', hvaluation, hcourse⟩ := exists_course_valuation host context tree s
    have hlength : found.length = tree.size := by
      rw [← length_nodes, ← hvaluation.nodes, List.length_map]
    refine ⟨value, found, s', hvaluation, hlength, questions_of_valuation hvaluation context, ?_⟩
    rw [run_traceOnto, run_traceOnto]
    exact hcourse.map fun trace => (trace.value, earlier ++ trace.records)
  · intro ask
    rw [run_traceOnto, ← value_trace, ← records_trace]
    rfl

end Tree

end Clearance
