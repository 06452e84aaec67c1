import Clearance.Proofs.Questions

/-!
# Checks and reports

A report asks for both trees in full, where a check stops as soon as it can.  They come to the same
decision, and the questions of the check are some of those of the report, in the same order; the
debug setting of an engine exchanges the one for the other.
-/

namespace Clearance

variable {κ β : Type}

/-! ## Access -/

namespace Access

/-- The question for a bypass checker, if there is one and it is wanted. -/
def bypassQuestions (bypass : Option β) (context : Json) (wanted : Bool) : List (Question κ β) :=
  if wanted then bypass.toList.map fun checker => .bypass checker context else []

/-- The questions for the restriction of a guarded tree. -/
def restrictionQuestions (tree : GuardedTree κ) (context : Json) : List (Question κ β) :=
  tree.noBypass.toList.flatMap (Tree.questions context)

/-- The questions for a restriction are those for its tree. -/
theorem restrictionQuestions_some (main noBypass : Tree κ) (context : Json) :
    (restrictionQuestions ⟨main, some noBypass⟩ context : List (Question κ β)) =
      noBypass.questions context := by
  simp [restrictionQuestions]

/-- Only bypass checkers are asked about the bypass. -/
theorem bypass_not_mem_restrictionQuestions (tree : GuardedTree κ) (context asked : Json)
    (checker : β) : Question.bypass checker asked ∉ restrictionQuestions tree context := by
  rw [restrictionQuestions, List.mem_flatMap]
  rintro ⟨noBypass, -, hasked⟩
  exact Tree.bypass_not_mem_questions context checker asked noBypass hasked

section Notes

variable (host : Host κ β Id) (bypass : Option β) (tree : GuardedTree κ) (context : Json)
  (allowBypass : Bool)

/-- The bypass checker is asked if it is wanted. -/
theorem asks_bypassGrants (suppressed : Bool) :
    Asks (bypassGrants host.noting bypass context allowBypass suppressed)
      (bypassGrants host bypass context allowBypass suppressed : Bool)
      (bypassQuestions bypass context (allowBypass && !suppressed)) := by
  cases bypass with
  | none =>
      have hnone : (bypassQuestions none context (allowBypass && !suppressed) :
          List (Question κ β)) = [] := by
        simp [bypassQuestions]
      rw [hnone]
      exact asks_pure false
  | some checker =>
      unfold bypassGrants bypassQuestions
      cases hwanted : allowBypass && !suppressed with
      | false => exact asks_pure false
      | true => exact asks_askBypass host context checker

/-- Whether the bypass is suppressed is found with some of the questions for the restriction. -/
theorem exists_asks_suppresses :
    ∃ asked, asked.Sublist (restrictionQuestions tree context) ∧
      Asks (suppresses host.noting tree context allowBypass)
        (suppresses host tree context allowBypass : Bool) asked := by
  obtain ⟨main, noBypass⟩ := tree
  cases noBypass with
  | none => exact ⟨[], List.nil_sublist _, asks_pure false⟩
  | some noBypass =>
      cases allowBypass with
      | false => exact ⟨[], List.nil_sublist _, asks_pure false⟩
      | true =>
          rw [restrictionQuestions_some]
          exact noBypass.exists_asks_eval host context

/-- The questions for the bypass, when its restriction has been decided. -/
def grantQuestions : List (Question κ β) :=
  bypassQuestions bypass context (allowBypass && !(suppresses host tree context allowBypass : Bool))

/-- The bypass grants access exactly if a bypass checker is asked and agrees. -/
theorem grantsByBypass_iff :
    grantsByBypass host bypass tree context allowBypass = true ↔
      ∃ checker, Question.bypass checker context ∈
          grantQuestions host bypass tree context allowBypass ∧
        host.askBypass checker context = true := by
  rw [grantsByBypass, grantQuestions, suppresses_eq]
  cases allowBypass <;> cases tree.noBypass.any _ <;> cases bypass <;> simp [bypassQuestions]

/-- A check asks some of the questions for the restriction, then the bypass checker, and then some
of the questions for the main tree. -/
theorem exists_asks_check (hcontext : checkContext context = .ok ()) :
    ∃ before after, before.Sublist (restrictionQuestions tree context) ∧
      after.Sublist (tree.main.questions context) ∧
      Asks (check host.noting bypass tree context allowBypass)
        (Id.run (check host bypass tree context allowBypass))
        (before ++ (grantQuestions host bypass tree context allowBypass ++ after)) := by
  obtain ⟨before, hbefore, hsuppresses⟩ := exists_asks_suppresses host tree context allowBypass
  obtain ⟨after, hafter, hmain⟩ := tree.main.exists_asks_eval host context
  have hgrants := asks_bypassGrants host bypass context allowBypass
    (suppresses host tree context allowBypass)
  rw [bypassGrants_suppresses] at hgrants
  rw [check_eq, check, hcontext]
  cases hbypass : grantsByBypass host bypass tree context allowBypass with
  | true =>
      -- after a grant the main tree is not asked for
      refine ⟨before, [], hbefore, List.nil_sublist _, ?_⟩
      rw [hbypass] at hgrants
      rw [grants, hbypass]
      exact hsuppresses.bind (hgrants.bind (asks_pure _))
  | false =>
      refine ⟨before, after, hbefore, hafter, ?_⟩
      rw [hbypass] at hgrants
      rw [grants, hbypass]
      exact hsuppresses.bind (hgrants.bind (hmain.map _))

/-- The restriction of a guarded tree is traced with all the questions for it. -/
theorem asks_traceOption :
    Asks (traceOption host.noting context tree.noBypass)
      (traceOption host context tree.noBypass : Option Tree.Trace)
      (restrictionQuestions tree context) := by
  obtain ⟨main, noBypass⟩ := tree
  cases noBypass with
  | none => exact asks_pure none
  | some noBypass =>
      rw [restrictionQuestions_some]
      exact (noBypass.asks_trace host context).map _

/-- A report asks all the questions for the restriction, then the bypass checker as a check does,
and then all the questions for the main tree. -/
theorem asks_report (hcontext : checkContext context = .ok ()) :
    Asks (report host.noting bypass tree context allowBypass)
      (Id.run (report host bypass tree context allowBypass))
      (restrictionQuestions tree context ++
        (grantQuestions host bypass tree context allowBypass ++ tree.main.questions context)) := by
  have hgrants := asks_bypassGrants host bypass context allowBypass
    (allowBypass && (Id.run (traceOption host context tree.noBypass)).any (·.value))
  have hmain := tree.main.asks_trace host context
  rw [grantQuestions, ← suppresses_eq_traceOption, report, report, hcontext]
  exact (asks_traceOption host tree context).bind (hgrants.bind (hmain.map _))

/-- The questions of a check are some of those of a report, in the same order, and the bypass grants
access exactly if the check asks a bypass checker that agrees. -/
theorem exists_asks_check_report :
    ∃ asked askedInFull, asked.Sublist askedInFull ∧
      Asks (check host.noting bypass tree context allowBypass)
        (Id.run (check host bypass tree context allowBypass)) asked ∧
      Asks (report host.noting bypass tree context allowBypass)
        (Id.run (report host bypass tree context allowBypass)) askedInFull ∧
      (checkContext context = .ok () →
        (grantsByBypass host bypass tree context allowBypass = true ↔
          ∃ checker, Question.bypass checker context ∈ asked ∧
            host.askBypass checker context = true)) := by
  cases hcontext : checkContext context with
  | error fault =>
      refine ⟨[], [], List.Sublist.refl _, ?_, ?_, by simp⟩
      · rw [check, check, hcontext]
        exact asks_pure _
      · rw [report, report, hcontext]
        exact asks_pure _
  | ok _ =>
      obtain ⟨before, after, hbefore, hafter, hcheck⟩ :=
        exists_asks_check host bypass tree context allowBypass hcontext
      refine ⟨_, _, hbefore.append ((List.Sublist.refl _).append hafter), hcheck,
        asks_report host bypass tree context allowBypass hcontext, fun _ => ?_⟩
      -- the questions before and after those for the bypass are for permissions
      have hnot : ∀ checker : β, Question.bypass checker context ∉ before ∧
          Question.bypass checker context ∉ after := fun checker =>
        ⟨fun h => bypass_not_mem_restrictionQuestions tree context context checker
            (hbefore.subset h),
          fun h => Tree.bypass_not_mem_questions context checker context tree.main
            (hafter.subset h)⟩
      rw [grantsByBypass_iff]
      simp only [List.mem_append, hnot, false_or, or_false]

end Notes

end Access

/-! ## Engines -/

namespace Engine

/-- The engine with the debug setting on or off. -/
def withDebug (engine : Engine κ β) (debug : Bool) : Engine κ β :=
  { engine with settings := { engine.settings with debug } }

/-- **The debug setting changes no decision.**  With the setting on and off, and in a report, an
engine comes to the same decision or fails alike.  With the setting off it asks some of the questions
that it asks with the setting on, in the same order.  What a report says of the trees is how they are
decided, and it says that the bypass grants access exactly if a bypass checker that agrees is asked
also with the setting off. -/
theorem debug_changes_no_decision (engine : Engine κ β) (host : Host κ β Id)
    (permissions context : Json) (allowBypass : Bool) :
    ∃ (decision : Except Fault Bool) (report : Except Fault Access.Report)
      (asked askedInFull : List (Question κ β)),
      (∀ debug, (engine.withDebug debug).checkWith host permissions context allowBypass =
        decision) ∧
      Asks ((engine.withDebug false).checkWith host.noting permissions context allowBypass)
        decision asked ∧
      Asks ((engine.withDebug true).checkWith host.noting permissions context allowBypass)
        decision askedInFull ∧
      Asks (engine.report host.noting permissions context allowBypass) report askedInFull ∧
      decision = report.map (·.hasAccess) ∧
      asked.Sublist askedInFull ∧
      ∀ found, report = .ok found → ∃ tree, engine.buildTree permissions = .ok tree ∧
        found.main.value = tree.main.eval host.ask context ∧
        found.noBypass.map (·.value) = tree.noBypass.map (·.eval host.ask context) ∧
        (found.bypassAccess = true ↔ ∃ checker, Question.bypass checker context ∈ asked ∧
          host.askBypass checker context = true) := by
  cases hbuild : engine.buildTree permissions with
  | error fault =>
      have hbuilt : ∀ debug, (engine.withDebug debug).buildTree permissions = .error fault :=
        fun _ => hbuild
      refine ⟨.error fault, .error fault, [], [], ?_, ?_, ?_, ?_, rfl, List.Sublist.refl _, by simp⟩
      · exact fun debug => checkWith_of_error host context allowBypass (hbuilt debug)
      · rw [checkWith_of_error host.noting context allowBypass (hbuilt false)]
        exact asks_pure _
      · rw [checkWith_of_error host.noting context allowBypass (hbuilt true)]
        exact asks_pure _
      · rw [report_of_error host.noting context allowBypass hbuild]
        exact asks_pure _
  | ok tree =>
      have hbuilt : ∀ debug, (engine.withDebug debug).buildTree permissions = .ok tree :=
        fun _ => hbuild
      obtain ⟨asked, askedInFull, hsublist, hcheck, hreport, hbypass⟩ :=
        Access.exists_asks_check_report host engine.bypass tree context allowBypass
      have hmap := Access.map_hasAccess_report host engine.bypass tree context allowBypass
      refine ⟨_, _, asked, askedInFull, ?_, ?_, ?_, ?_, hmap.symm, hsublist, ?_⟩
      · intro debug
        show Id.run ((engine.withDebug debug).checkWith host permissions context allowBypass) = _
        rw [checkWith_eq, hbuilt]
        rfl
      · rw [checkWith_of_off host.noting context allowBypass rfl (hbuilt false)]
        exact hcheck
      · rw [checkWith_of_on host.noting context allowBypass rfl (hbuilt true), ← hmap]
        exact hreport.map _
      · rw [report_of_ok host.noting context allowBypass hbuild]
        exact hreport
      · intro found hfound
        rw [Access.report_eq] at hfound
        cases hcontext : Access.checkContext context with
        | error fault =>
            rw [hcontext] at hfound
            cases hfound
        | ok _ =>
            rw [hcontext] at hfound
            cases hfound
            exact ⟨tree, rfl, Tree.value_trace host.ask context tree.main,
              Access.map_value_traceOption host tree context, hbypass hcontext⟩

end Engine

end Clearance
