import Clearance.Proofs.Debugging
import Clearance.Proofs.FixedPoint
import Clearance.Proofs.Laziness
import Clearance.Proofs.Outcomes

/-!
# The course of a decision

An application may keep state, so that its answers change from call to call.  Which calls a decision
makes, in which order, and what it makes of the answers is said here for every application: a check
decides trees lazily and stops as soon as access is granted, a report decides them in full.
-/

namespace Clearance

variable {κ β σ : Type}

/-! ## Records -/

/-- A question to an application, and the answer to it. -/
structure Call (κ β : Type) where
  question : Question κ β
  answer : Bool

/-- The application that records every call, the last one last. -/
def Host.recording {m : Type → Type} [Monad m] (host : Host κ β m) :
    Host κ β (StateT (List (Call κ β)) m) where
  ask checker value context := do
    let answer ← host.ask checker value context
    modify fun calls => calls ++ [⟨.permission checker value context, answer⟩]
    return answer
  askBypass checker context := do
    let answer ← host.askBypass checker context
    modify fun calls => calls ++ [⟨.bypass checker context, answer⟩]
    return answer

/-- A decision that starts in one state comes to a result in another; recorded, it makes these
calls. -/
structure Course {α : Type} (x : StateM σ α) (recorded : StateT (List (Call κ β)) (StateM σ) α)
    (s : σ) (calls : List (Call κ β)) (a : α) (s' : σ) : Prop where
  run : x.run s = (a, s')
  run_recorded : ∀ before, (recorded.run before).run s = ((a, before ++ calls), s')

/-- What is known takes no calls. -/
theorem course_pure {α : Type} (a : α) (s : σ) :
    Course (pure a) (pure a) s ([] : List (Call κ β)) a s where
  run := rfl
  run_recorded before := by
    rw [List.append_nil]
    rfl

/-- The calls of the first decision come before those of the second. -/
theorem Course.bind {α γ : Type} {x : StateM σ α} {recorded : StateT (List (Call κ β)) (StateM σ) α}
    {f : α → StateM σ γ} {g : α → StateT (List (Call κ β)) (StateM σ) γ}
    {first second : List (Call κ β)} {a : α} {c : γ} {s s' s'' : σ}
    (hx : Course x recorded s first a s') (hf : Course (f a) (g a) s' second c s'') :
    Course (x >>= f) (recorded >>= g) s (first ++ second) c s'' where
  run := by
    rw [StateT.run_bind, hx.run]
    exact hf.run
  run_recorded before := by
    rw [StateT.run_bind, StateT.run_bind, hx.run_recorded, ← List.append_assoc]
    exact hf.run_recorded (before ++ first)

/-- What is made of a result takes no further calls. -/
theorem Course.map {α γ : Type} {x : StateM σ α} {recorded : StateT (List (Call κ β)) (StateM σ) α}
    {calls : List (Call κ β)} {a : α} {s s' : σ} (hx : Course x recorded s calls a s')
    (f : α → γ) :
    Course (x >>= fun a => pure (f a)) (recorded >>= fun a => pure (f a)) s calls (f a) s' := by
  have hmap : Course (x >>= fun a => pure (f a)) (recorded >>= fun a => pure (f a)) s
      (calls ++ []) (f a) s' := hx.bind (course_pure (f a) s')
  rwa [List.append_nil] at hmap

/-- A checker is called once. -/
theorem exists_course_ask (host : Host κ β (StateM σ)) (checker : κ) (value : String)
    (context : Json) (s : σ) :
    ∃ answer s', Course (host.ask checker value context)
      (host.recording.ask checker value context) s
      [⟨.permission checker value context, answer⟩] answer s' :=
  ⟨_, _, rfl, fun _ => rfl⟩

/-- A bypass checker is called once. -/
theorem exists_course_askBypass (host : Host κ β (StateM σ)) (checker : β) (context : Json)
    (s : σ) :
    ∃ answer s', Course (host.askBypass checker context)
      (host.recording.askBypass checker context) s [⟨.bypass checker context, answer⟩] answer s' :=
  ⟨_, _, rfl, fun _ => rfl⟩

/-! ## Trees -/

/-- What a decision has found: the calls it took, and the value. -/
structure Finding (κ β : Type) where
  calls : List (Call κ β)
  value : Bool

/-- Where nothing is decided nothing is called, and nothing holds. -/
def Finding.nothing : Finding κ β := ⟨[], false⟩

/-- A gate that reads all its inputs, of which there are so many. -/
structure Gate.Exhausts (g : Gate) (count : Nat) (values : List Bool) (value : Bool) : Prop where
  all : values.length = count
  truth : g.truth values = value

/-- What can be found of a tree in a context, whatever the answers: every permission that is
reached is called for, and a gate reads its inputs from left to right up to where it stops. -/
inductive Tree.Decided (stops : Gate → Nat → List Bool → Bool → Prop) (context : Json) :
    Tree κ → Finding κ β → Prop
  | constant (value : Bool) : Decided stops context (.constant value) ⟨[], value⟩
  | permission (type value : String) (checker : κ) (answer : Bool) :
    Decided stops context (.permission type value checker)
      ⟨[⟨.permission checker value context, answer⟩], answer⟩
  | gate {g : Gate} {read unread : List (Tree κ)} {found : List (Finding κ β)} {value : Bool}
    (hread : List.Forall₂ (Decided stops context) read found)
    (hstops : stops g (read ++ unread).length (found.map (·.value)) value) :
    Decided stops context (.gate g (read ++ unread)) ⟨found.flatMap (·.calls), value⟩

/-- What is found lazily: each gate reads the fewest inputs that settle its value. -/
abbrev Tree.Lazily (context : Json) : Tree κ → Finding κ β → Prop := Decided Gate.Stops context

/-- What is found in full: each gate reads all its inputs. -/
abbrev Tree.InFull (context : Json) : Tree κ → Finding κ β → Prop := Decided Gate.Exhausts context

namespace Tree

/-- Deciding a tree in full calls for each of its permissions once, from left to right. -/
theorem questions_of_inFull {context : Json} {tree : Tree κ} {finding : Finding κ β}
    (h : tree.InFull context finding) :
    finding.calls.map (·.question) = tree.questions context := by
  induction tree using Tree.induction generalizing finding with
  | constant value =>
      cases h
      rfl
  | permission type value checker =>
      cases h
      rfl
  | gate g inputs ih =>
      cases h with
      | @gate g read unread found value hread hstops =>
          have hnone : unread = [] := by
            have hall := hstops.all
            rw [List.length_map, ← hread.length_eq, List.length_append] at hall
            exact List.length_eq_zero_iff.1 (by omega)
          subst hnone
          rw [List.append_nil] at ih ⊢
          have hquestions : read.map (questions context) =
              found.map fun finding => finding.calls.map (·.question) := by
            rw [← forall₂_eq_iff_map_eq]
            exact forall₂_imp_of_mem
              (fun input hinput found hfound => (ih input hinput hfound).symm) hread
          rw [questions, questionsEach_eq_flatMap, List.map_flatMap, List.flatMap_def,
            List.flatMap_def, hquestions]

section Courses

variable (host : Host κ β (StateM σ)) {context : Json}

/-- A gate reads inputs until they settle its value, if it admits their number. -/
theorem exists_course_runFrom {g : Gate} {count : Nat} (hadmits : g.admits count = true)
    {inputs : List (Tree κ)}
    (hinputs : ∀ input ∈ inputs, ∀ s, ∃ (finding : Finding κ β) (s' : σ),
      input.Lazily context finding ∧
      Course (input.eval host.ask context) (input.eval host.recording.ask context) s
        finding.calls finding.value s')
    {values : List Bool} (hcount : values.length + inputs.length = count)
    (hpending : g.Pending count values) (s : σ) :
    ∃ read unread found value s', inputs = read ++ unread ∧
      List.Forall₂ (Lazily context) read found ∧
      g.Stops count (values ++ found.map (·.value)) value ∧
      Course (g.runFrom (.of values) (inputs.map (eval host.ask context)))
        (g.runFrom (.of values) (inputs.map (eval host.recording.ask context))) s
        (found.flatMap (·.calls)) value s' := by
  induction inputs generalizing values s with
  | nil =>
      have hstops := hpending.stops hadmits (by omega) (Or.inr (by simpa using hcount))
      refine ⟨[], [], [], _, s, rfl, .nil, ?_, course_pure _ s⟩
      rwa [List.map_nil, List.append_nil]
  | cons input rest ih =>
      rw [List.length_cons] at hcount
      rw [List.map_cons, List.map_cons]
      cases hsettled : g.settled (.of values) with
      | true =>
          have hstops := hpending.stops hadmits (by omega) (Or.inl hsettled)
          rw [Gate.runFrom_of_settled hsettled, Gate.runFrom_of_settled hsettled]
          refine ⟨[], input :: rest, [], _, s, rfl, .nil, ?_, course_pure _ s⟩
          rwa [List.map_nil, List.append_nil]
      | false =>
          rw [List.forall_mem_cons] at hinputs
          obtain ⟨finding, s', hfinding, hcourse⟩ := hinputs.1 s
          have hpending' := hpending.concat hadmits (by omega) hsettled finding.value
          obtain ⟨read, unread, found, value, s'', hparts, hread, hstops, hrest⟩ :=
            ih hinputs.2 (by rw [List.length_append, List.length_singleton]; omega) hpending' s'
          rw [List.append_assoc, List.singleton_append] at hstops
          rw [Gate.Seen.of_concat] at hrest
          rw [Gate.runFrom_cons hsettled, Gate.runFrom_cons hsettled]
          exact ⟨input :: read, unread, finding :: found, value, s'', by rw [hparts]; rfl,
            .cons hfinding hread, hstops, hcourse.bind hrest⟩

/-- A tree is decided lazily, whatever the state of the application. -/
theorem exists_course_eval {tree : Tree κ} (hwf : tree.wellFormed = true) (s : σ) :
    ∃ finding s', tree.Lazily context finding ∧
      Course (tree.eval host.ask context) (tree.eval host.recording.ask context) s
        finding.calls finding.value s' := by
  induction tree using Tree.induction generalizing s with
  | constant value => exact ⟨⟨[], value⟩, s, .constant value, course_pure value s⟩
  | permission type value checker =>
      obtain ⟨answer, s', hcourse⟩ := exists_course_ask host checker value context s
      exact ⟨⟨_, answer⟩, s', .permission type value checker answer, hcourse⟩
  | gate g inputs ih =>
      rw [wellFormed_gate_iff] at hwf
      obtain ⟨read, unread, found, value, s', rfl, hread, hstops, hcourse⟩ :=
        exists_course_runFrom host hwf.1 (fun input hinput => ih input hinput (hwf.2 input hinput))
          (Nat.zero_add _) (Gate.pending_nil g _) s
      rw [eval, eval, evalEach_eq_map, evalEach_eq_map]
      exact ⟨⟨_, value⟩, s', .gate hread hstops, hcourse⟩

/-- Trees are traced one after the other, and what is found of each is what is found of it by
itself. -/
theorem exists_course_traceEach {α : Type} {P : Tree κ → α → Prop} {calls : α → List (Call κ β)}
    {traced : α → Trace} {trees : List (Tree κ)}
    (htrees : ∀ tree ∈ trees, ∀ s, ∃ (a : α) (s' : σ), P tree a ∧
      Course (tree.trace host.ask context) (tree.trace host.recording.ask context) s (calls a)
        (traced a) s') (s : σ) :
    ∃ (found : List α) (s' : σ), List.Forall₂ P trees found ∧
      Course (traceEach host.ask context trees) (traceEach host.recording.ask context trees) s
        (found.flatMap calls) (found.map traced) s' := by
  induction trees generalizing s with
  | nil => exact ⟨[], s, .nil, course_pure [] s⟩
  | cons tree rest ih =>
      rw [List.forall_mem_cons] at htrees
      obtain ⟨first, s', hfirst, hcourse⟩ := htrees.1 s
      obtain ⟨found, s'', hfound, hrest⟩ := ih htrees.2 s'
      exact ⟨first :: found, s'', .cons hfirst hfound, hcourse.bind (hrest.map _)⟩

/-- A tree is traced in full, whatever the state of the application. -/
theorem exists_course_trace {tree : Tree κ} (hwf : tree.wellFormed = true) (s : σ) :
    ∃ (finding : Finding κ β) (trace : Trace) (s' : σ), tree.InFull context finding ∧
      trace.value = finding.value ∧
      Course (tree.trace host.ask context) (tree.trace host.recording.ask context) s
        finding.calls trace s' := by
  induction tree using Tree.induction generalizing s with
  | constant value => exact ⟨⟨[], value⟩, _, s, .constant value, rfl, course_pure _ s⟩
  | permission type value checker =>
      obtain ⟨answer, s', hcourse⟩ := exists_course_ask host checker value context s
      exact ⟨⟨_, answer⟩, _, s', .permission type value checker answer, rfl, hcourse.map _⟩
  | gate g inputs ih =>
      rw [wellFormed_gate_iff] at hwf
      have hinputs : ∀ input ∈ inputs, ∀ s, ∃ (entry : Finding κ β × Trace) (s' : σ),
          (input.InFull context entry.1 ∧ entry.2.value = entry.1.value) ∧
          Course (input.trace host.ask context) (input.trace host.recording.ask context) s
            entry.1.calls entry.2 s' := by
        intro input hinput s
        obtain ⟨finding, trace, s', hfinding, hvalue, hcourse⟩ :=
          ih input hinput (hwf.2 input hinput) s
        exact ⟨(finding, trace), s', ⟨hfinding, hvalue⟩, hcourse⟩
      obtain ⟨found, s', hfound, hcourse⟩ := exists_course_traceEach host hinputs s
      have hlength : (found.map fun entry => entry.1.value).length = inputs.length := by
        rw [List.length_map, hfound.length_eq]
      have hfinding : List.Forall₂ (InFull context) inputs (found.map (·.1)) := by
        rw [List.forall₂_map_right_iff]
        exact hfound.imp fun input entry h => h.1
      have hvalues : (found.map (·.2)).map (·.value) = found.map fun entry => entry.1.value := by
        rw [List.map_map]
        refine List.map_congr_left fun entry hentry => ?_
        obtain ⟨input, -, -, hvalue⟩ := exists_mem_of_forall₂ hfound entry hentry
        exact hvalue
      have hvalue : g.apply ((found.map (·.2)).map (·.value)) =
          g.truth (found.map fun entry => entry.1.value) := by
        rw [hvalues, Gate.apply_eq_truth]
      have hdecided : (gate g (inputs ++ [])).InFull context
          ⟨(found.map (·.1)).flatMap (·.calls), g.truth ((found.map (·.1)).map (·.value))⟩ :=
        .gate hfinding ⟨by simpa using hlength, rfl⟩
      rw [List.append_nil, List.flatMap_map, List.map_map] at hdecided
      exact ⟨_, _, s', hdecided, hvalue, hcourse.map _⟩

end Courses

end Tree

/-! ## Access -/

namespace Access

/-- What is found of a tree that may not be wanted. -/
def Consults (stops : Gate → Nat → List Bool → Bool → Prop) (context : Json) :
    Option (Tree κ) → Finding κ β → Prop
  | some tree, finding => tree.Decided stops context finding
  | none, finding => finding = .nothing

/-- What is found by calling a bypass checker that may not be wanted. -/
def CallsBypass (context : Json) : Option β → Finding κ β → Prop
  | some checker, finding => ∃ answer, finding = ⟨[⟨.bypass checker context, answer⟩], answer⟩
  | none, finding => finding = .nothing

section Courses

variable (host : Host κ β (StateM σ)) (bypass : Option β) {tree : GuardedTree κ} {context : Json}
  (allowBypass : Bool)

/-- The bypass checker is called if the bypass is allowed and not suppressed. -/
theorem exists_course_bypassGrants (suppressed : Bool) (s : σ) :
    ∃ (grant : Finding κ β) (s' : σ),
      CallsBypass context (if allowBypass && !suppressed then bypass else none) grant ∧
      Course (bypassGrants host bypass context allowBypass suppressed)
        (bypassGrants host.recording bypass context allowBypass suppressed) s
        grant.calls grant.value s' := by
  cases bypass with
  | none =>
      rw [ite_self]
      exact ⟨.nothing, s, rfl, course_pure false s⟩
  | some checker =>
      rw [bypassGrants, bypassGrants]
      cases hwanted : allowBypass && !suppressed with
      | false => exact ⟨.nothing, s, rfl, course_pure false s⟩
      | true =>
          obtain ⟨answer, s', hcourse⟩ := exists_course_askBypass host checker context s
          exact ⟨⟨_, answer⟩, s', ⟨answer, rfl⟩, hcourse⟩

/-- In a check the restriction is decided lazily, if there is one and the bypass is allowed. -/
theorem exists_course_suppresses (hwf : tree.Both fun t => t.wellFormed = true) (s : σ) :
    ∃ (restriction : Finding κ β) (s' : σ),
      Consults Gate.Stops context (if allowBypass then tree.noBypass else none) restriction ∧
      Course (suppresses host tree context allowBypass)
        (suppresses host.recording tree context allowBypass) s
        restriction.calls restriction.value s' := by
  rw [suppresses, suppresses]
  cases hnoBypass : tree.noBypass with
  | none =>
      rw [ite_self]
      exact ⟨.nothing, s, rfl, course_pure false s⟩
  | some noBypass =>
      cases allowBypass with
      | false => exact ⟨.nothing, s, rfl, course_pure false s⟩
      | true => exact noBypass.exists_course_eval host (hwf.2 noBypass hnoBypass) s

/-- A check decides the restriction, then calls the bypass checker, and then decides the main tree,
each only as far as it is needed. -/
theorem exists_course_check (hwf : tree.Both fun t => t.wellFormed = true)
    (hcontext : checkContext context = .ok ()) (s : σ) :
    ∃ (restriction grant main : Finding κ β) (s' : σ),
      Consults Gate.Stops context (if allowBypass then tree.noBypass else none) restriction ∧
      CallsBypass context (if allowBypass && !restriction.value then bypass else none) grant ∧
      Consults Gate.Stops context (if grant.value then none else some tree.main) main ∧
      Course (check host bypass tree context allowBypass)
        (check host.recording bypass tree context allowBypass) s
        (restriction.calls ++ (grant.calls ++ main.calls)) (.ok (grant.value || main.value))
        s' := by
  obtain ⟨restriction, s₁, hrestriction, hsuppresses⟩ :=
    exists_course_suppresses host allowBypass hwf s
  obtain ⟨grant, s₂, hgrant, hgrants⟩ :=
    exists_course_bypassGrants host bypass allowBypass restriction.value s₁
  rw [check, check, hcontext]
  cases hgranted : grant.value with
  | true =>
      -- after a grant the main tree is not decided
      rw [hgranted] at hgrants
      refine ⟨restriction, grant, .nothing, s₂, hrestriction, hgrant, by rw [hgranted]; rfl, ?_⟩
      rw [hgranted]
      exact hsuppresses.bind (hgrants.bind (course_pure _ s₂))
  | false =>
      rw [hgranted] at hgrants
      obtain ⟨main, s₃, hmain, hcourse⟩ := tree.main.exists_course_eval host hwf.1 s₂
      refine ⟨restriction, grant, main, s₃, hrestriction, hgrant, by rw [hgranted]; exact hmain, ?_⟩
      rw [hgranted]
      exact hsuppresses.bind (hgrants.bind (hcourse.map _))

/-- In a report the restriction is decided in full, if there is one. -/
theorem exists_course_traceOption (hwf : tree.Both fun t => t.wellFormed = true) (s : σ) :
    ∃ (restriction : Finding κ β) (trace : Option Tree.Trace) (s' : σ),
      Consults Gate.Exhausts context tree.noBypass restriction ∧
      trace.any (·.value) = restriction.value ∧
      Course (traceOption host context tree.noBypass)
        (traceOption host.recording context tree.noBypass) s restriction.calls trace s' := by
  cases hnoBypass : tree.noBypass with
  | none => exact ⟨.nothing, none, s, rfl, rfl, course_pure none s⟩
  | some noBypass =>
      obtain ⟨restriction, trace, s', hrestriction, hvalue, hcourse⟩ :=
        noBypass.exists_course_trace host (hwf.2 noBypass hnoBypass) s
      exact ⟨restriction, some trace, s', hrestriction, hvalue, hcourse.map some⟩

/-- A report decides the restriction in full, then calls the bypass checker as a check does, and
then decides the main tree in full. -/
theorem exists_course_report (hwf : tree.Both fun t => t.wellFormed = true)
    (hcontext : checkContext context = .ok ()) (s : σ) :
    ∃ (restriction grant main : Finding κ β) (found : Report) (s' : σ),
      Consults Gate.Exhausts context tree.noBypass restriction ∧
      CallsBypass context (if allowBypass && !restriction.value then bypass else none) grant ∧
      tree.main.InFull context main ∧
      Course (report host bypass tree context allowBypass)
        (report host.recording bypass tree context allowBypass) s
        (restriction.calls ++ (grant.calls ++ main.calls)) (.ok found) s' ∧
      found.bypassAccess = grant.value ∧ found.main.value = main.value ∧
      found.hasAccess = (found.bypassAccess || found.main.value) := by
  obtain ⟨restriction, noBypass, s₁, hrestriction, hvalue, htrace⟩ :=
    exists_course_traceOption host hwf s
  obtain ⟨grant, s₂, hgrant, hgrants⟩ :=
    exists_course_bypassGrants host bypass allowBypass (allowBypass && restriction.value) s₁
  obtain ⟨main, trace, s₃, hmain, hmainValue, hcourse⟩ :=
    tree.main.exists_course_trace host hwf.1 s₂
  have hwanted : (allowBypass && !(allowBypass && restriction.value)) =
      (allowBypass && !restriction.value) := by
    rw [Bool.not_and, Bool.and_or_distrib_left, Bool.and_not_self, Bool.false_or]
  rw [hwanted] at hgrant
  rw [← hvalue] at hgrants
  rw [report, report, hcontext]
  exact ⟨restriction, grant, main, _, s₃, hrestriction, hgrant, hmain,
    htrace.bind (hgrants.bind (hcourse.map _)), rfl, hmainValue, rfl⟩

end Courses

/-- Deciding a restriction in full calls for each of its permissions once, from left to right. -/
theorem questions_of_consults {tree : GuardedTree κ} {context : Json} {restriction : Finding κ β}
    (h : Consults Gate.Exhausts context tree.noBypass restriction) :
    restriction.calls.map (·.question) = restrictionQuestions tree context := by
  obtain ⟨main, noBypass⟩ := tree
  cases noBypass with
  | none =>
      have hnothing : restriction = .nothing := h
      rw [hnothing]
      rfl
  | some noBypass =>
      rw [restrictionQuestions_some]
      exact Tree.questions_of_inFull h

/-- **The course of a decision.**  In a context that is neither null nor an object nothing is called
and the decision fails.  Otherwise a check decides the restriction lazily if the bypass is allowed
and there is one, calls the bypass checker once if the bypass is allowed, there is one and the
restriction does not hold, and decides the main tree lazily if that did not grant access; in this
order, and what it comes to is that the bypass or the main tree grants access.  A report calls for
every permission of the restriction once, then for the bypass under the same condition, and then for
every permission of the main tree once. -/
theorem course_of_decision (host : Host κ β (StateM σ)) (bypass : Option β) (tree : GuardedTree κ)
    (hwf : tree.Both fun t => t.wellFormed = true) (context : Json) (allowBypass : Bool) (s : σ) :
    (context.kind ≠ .null ∧ context.kind ≠ .object →
      Course (check host bypass tree context allowBypass)
        (check host.recording bypass tree context allowBypass) s []
        (.error (.notAContext context.kind)) s ∧
      Course (report host bypass tree context allowBypass)
        (report host.recording bypass tree context allowBypass) s []
        (.error (.notAContext context.kind)) s) ∧
    (context.kind = .null ∨ context.kind = .object →
      (∃ (restriction grant main : Finding κ β) (s' : σ),
        Consults Gate.Stops context (if allowBypass then tree.noBypass else none) restriction ∧
        CallsBypass context (if allowBypass && !restriction.value then bypass else none) grant ∧
        Consults Gate.Stops context (if grant.value then none else some tree.main) main ∧
        Course (check host bypass tree context allowBypass)
          (check host.recording bypass tree context allowBypass) s
          (restriction.calls ++ (grant.calls ++ main.calls)) (.ok (grant.value || main.value)) s') ∧
      ∃ (restriction grant main : Finding κ β) (found : Report) (s' : σ),
        Consults Gate.Exhausts context tree.noBypass restriction ∧
        restriction.calls.map (·.question) = restrictionQuestions tree context ∧
        CallsBypass context (if allowBypass && !restriction.value then bypass else none) grant ∧
        tree.main.InFull context main ∧
        main.calls.map (·.question) = tree.main.questions context ∧
        Course (report host bypass tree context allowBypass)
          (report host.recording bypass tree context allowBypass) s
          (restriction.calls ++ (grant.calls ++ main.calls)) (.ok found) s' ∧
        found.bypassAccess = grant.value ∧ found.main.value = main.value ∧
        found.hasAccess = (found.bypassAccess || found.main.value)) := by
  constructor
  · rintro ⟨hnull, hobject⟩
    have hcontext : checkContext context = .error (.notAContext context.kind) := by
      rw [checkContext_eq, if_neg (by simp [hnull, hobject])]
    rw [check, check, report, report, hcontext]
    exact ⟨course_pure _ s, course_pure _ s⟩
  · intro hkind
    have hcontext : checkContext context = .ok () := by rw [checkContext_eq, if_pos hkind]
    refine ⟨exists_course_check host bypass allowBypass hwf hcontext s, ?_⟩
    obtain ⟨restriction, grant, main, found, s', hrestriction, hgrant, hmain, hfound⟩ :=
      exists_course_report host bypass allowBypass hwf hcontext s
    exact ⟨restriction, grant, main, found, s', hrestriction, questions_of_consults hrestriction,
      hgrant, hmain, Tree.questions_of_inFull hmain, hfound⟩

/-- An application that answers no and yes in turn, whatever is asked. -/
def alternating : Host Unit Unit (StateM Bool) where
  ask _ _ _ := modifyGet fun next => (next, !next)
  askBypass _ _ := modifyGet fun next => (next, !next)

/-- With alternating answers a check finds the restriction false by its first half alone, calls for
the bypass and is granted it.  A report calls for all permissions of both trees, and finds other
answers after the first.  A context that is a boolean calls for nothing. -/
theorem course_of_decision_alternating :
    let role : String → Tree Unit := fun value => .permission "role" value ()
    let tree : GuardedTree Unit :=
      ⟨.gate .or [role "a", role "b"], some (.gate .and [role "c", role "d"])⟩
    (∃ restriction grant main : Finding Unit Unit,
      Consults Gate.Stops .null tree.noBypass restriction ∧
      CallsBypass .null (if true && !restriction.value then some () else none) grant ∧
      restriction.calls ++ (grant.calls ++ main.calls) =
        [⟨.permission () "c" .null, false⟩, ⟨.bypass () .null, true⟩]) ∧
    (∃ restriction grant main : Finding Unit Unit,
      Consults Gate.Exhausts .null tree.noBypass restriction ∧ tree.main.InFull .null main ∧
      restriction.calls ++ (grant.calls ++ main.calls) =
        [⟨.permission () "c" .null, false⟩, ⟨.permission () "d" .null, true⟩,
          ⟨.bypass () .null, false⟩, ⟨.permission () "a" .null, true⟩,
          ⟨.permission () "b" .null, false⟩]) ∧
    Course (check alternating (some ()) tree (.bool true) true)
      (check alternating.recording (some ()) tree (.bool true) true) false []
      (.error (.notAContext .boolean)) false := by
  intro role tree
  have hwf : tree.Both fun t => t.wellFormed = true := by
    refine ⟨rfl, ?_⟩
    intro noBypass hnoBypass
    cases hnoBypass
    rfl
  have hcourse := fun context : Json =>
    course_of_decision alternating (some ()) tree hwf context true false
  obtain ⟨⟨restriction, grant, main, s', hrestriction, hgrant, -, hcheck⟩,
    restriction', grant', main', found, s'', hrestriction', -, -, hmain', -, hreport, -⟩ :=
    (hcourse .null).2 (Or.inl rfl)
  have hchecked : restriction.calls ++ (grant.calls ++ main.calls) = _ :=
    congrArg (fun result => result.1.2) (hcheck.run_recorded []).symm
  have hreported : restriction'.calls ++ (grant'.calls ++ main'.calls) = _ :=
    congrArg (fun result => result.1.2) (hreport.run_recorded []).symm
  exact ⟨⟨restriction, grant, main, hrestriction, hgrant, hchecked⟩,
    ⟨restriction', grant', main', hrestriction', hmain', hreported⟩,
    ((hcourse (.bool true)).1 (by decide)).1⟩

end Access

end Clearance
