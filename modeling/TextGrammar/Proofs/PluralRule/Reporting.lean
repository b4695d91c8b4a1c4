import TextGrammar.Proofs.PluralRule.Printing
import TextGrammar.Proofs.PluralRule.RoundTrip
import TextGrammar.Proofs.Recognizer.Window

/-!
Reports on many rules. Every rule is reported on by itself, and only the line of
totals looks at all of them. A program that checks the rules in a loop keeps one
pair of streams and one counter of failures; `foldlM_next` says what it has after
some rules. The main statement is `run_reports_each`.
-/

namespace TextGrammar

namespace Report

theorem append_eq
    (first second : Report) :
    first ++ second =
      { exitCode := max first.exitCode second.exitCode
        output := first.output ++ second.output
        diagnostics := first.diagnostics ++ second.diagnostics } := rfl

/-- A text of reports in turn is joined from the texts of each of them. -/
theorem text_concat
    {text : Report → String} (empty : text {} = "")
    (inTurn : ∀ first second, text (first ++ second) = text first ++ text second)
    (reports : List Report) :
    text (concat reports) = String.join (reports.map text) := by
  induction reports with
  | nil =>
      exact empty
  | cons report reports inductionHypothesis =>
      rw [List.map_cons, String.join_cons, ← inductionHypothesis]
      exact inTurn report (concat reports)

private theorem output_concat
    (reports : List Report) :
    (concat reports).output = String.join (reports.map output) :=
  text_concat rfl (fun _ _ => rfl) reports

private theorem diagnostics_concat
    (reports : List Report) :
    (concat reports).diagnostics =
      String.join (reports.map diagnostics) :=
  text_concat rfl (fun _ _ => rfl) reports

end Report

namespace PluralRule

/-- The report on one rule without a line of totals: a line with the rule, and then
its tree and an empty line, or a line about its problem with texts put in quotes by
`quote`. -/
inductive Reports (quote : String → String) (rule : String) : Report → Prop where
  | tree {tree : Node Tag} {shown : String} :
      check rule = .ok (.ok tree) → Checked rule (.ok tree) →
        printer.print tree = .ok shown →
          Reports quote rule
            { exitCode := 0
              output := "rule: " ++ rule ++ "\n" ++ (shown ++ "\n\n")
              diagnostics := "" }
  | problem {problem : Problem} :
      check rule = .ok (.error problem) → Checked rule (.error problem) →
        Reports quote rule
          { exitCode := 1
            output := "rule: " ++ rule ++ "\n"
            diagnostics := problem.message quote ++ "\n" }

theorem exists_reports
    (quote : String → String) (rule : String) :
    ∃ report, Reports quote rule report := by
  obtain ⟨result, computed, checked⟩ := exists_checked rule
  cases result with
  | error problem =>
      exact ⟨_, .problem computed checked⟩
  | ok tree =>
      obtain ⟨shown, printed⟩ : ∃ shown, printer.print tree = .ok shown := by
        cases checked with
        | accepted _ parsed _ =>
            have shaped := returns_ruleParser _ tree _ parsed
            exact printer.exists_print shaped.readable
      exact ⟨_, .tree computed checked printed⟩

theorem exists_reports_each
    (quote : String → String) (rules : List String) :
    ∃ reports, List.Forall₂ (Reports quote) rules reports := by
  induction rules with
  | nil =>
      exact ⟨[], .nil⟩
  | cons rule rules inductionHypothesis =>
      obtain ⟨report, first⟩ := exists_reports quote rule
      obtain ⟨reports, others⟩ := inductionHypothesis
      exact ⟨report :: reports, .cons first others⟩

variable {quote : String → String}

namespace Reports

variable {rule : String} {report : Report}

theorem reportRule_eq
    (reported : Reports quote rule report) :
    reportRule quote rule = .ok report := by
  cases reported with
  | tree computed _ printed =>
      simp only [reportRule, computed, bind, Except.bind, printed,
        Report.append_eq, Report.line, String.append_assoc]
      rfl
  | problem computed _ =>
      simp only [reportRule, computed, bind, Except.bind, Report.append_eq,
        Report.line, Report.diagnostic, String.append_empty,
        String.empty_append]
      rfl

/-- Just the rules that are recognized over their whole length succeed. -/
theorem exitCode_eq
    (reported : Reports quote rule report) :
    report.exitCode = if RecognizedWhole rule then 0 else 1 := by
  cases reported with
  | tree _ checked _ =>
      cases checked with
      | accepted whole _ _ =>
          rw [if_pos whole]
  | problem _ checked =>
      have partly : ¬ RecognizedWhole rule := by
        unfold RecognizedWhole
        cases checked with
        | unexpected found short _ =>
            rw [found]
            exact mt Option.some.inj short
        | unrecognized missing =>
            rw [missing]
            exact (Option.some_ne_none _).symm
      rw [if_neg partly]

end Reports

/-- The line of totals behind the diagnostics of some rules, if one of them is
not recognized over its whole length. -/
def summary (rules : List String) : String :=
  if ∀ rule ∈ rules, RecognizedWhole rule then
    ""
  else
    let failures := rules.countP fun rule => ¬ RecognizedWhole rule
    s!"{failures} of {rules.length} rules failed\n"

section

variable {rules : List String} {reports : List Report}

private theorem mapM_reportRule
    (each : List.Forall₂ (Reports quote) rules reports) :
    rules.mapM (reportRule quote) = .ok reports := by
  induction each with
  | nil =>
      rfl
  | cons first _ inductionHypothesis =>
      rw [List.mapM_cons, first.reportRule_eq, inductionHypothesis]
      rfl

private theorem exitCode_concat
    (each : List.Forall₂ (Reports quote) rules reports) :
    (Report.concat reports).exitCode =
      if ∀ rule ∈ rules, RecognizedWhole rule then 0 else 1 := by
  induction each with
  | nil =>
      rfl
  | @cons rule report rules reports first _ inductionHypothesis =>
      have inTurn :
          (Report.concat (report :: reports)).exitCode =
            max report.exitCode (Report.concat reports).exitCode := rfl
      rw [inTurn, inductionHypothesis, first.exitCode_eq]
      simp only [List.forall_mem_cons]
      by_cases whole : RecognizedWhole rule
      · simp only [whole, if_true, true_and]
        exact Nat.zero_max _
      · simp only [whole, if_false, false_and]
        split <;> rfl

private theorem countP_exitCode
    (each : List.Forall₂ (Reports quote) rules reports) :
    reports.countP (fun report => report.exitCode != 0) =
      rules.countP fun rule => ¬ RecognizedWhole rule := by
  induction each with
  | nil =>
      rfl
  | @cons rule report rules reports first _ inductionHypothesis =>
      rw [List.countP_cons, List.countP_cons, inductionHypothesis,
        first.exitCode_eq]
      by_cases whole : RecognizedWhole rule
      · simp [whole]
      · simp [whole]

private theorem countP_eq_zero_iff
    {rules : List String} :
    rules.countP (fun rule => ¬ RecognizedWhole rule) = 0 ↔
      ∀ rule ∈ rules, RecognizedWhole rule := by
  simp [List.countP_eq_zero]

private theorem diagnostics_totals
    (rules : List String) :
    (totals (rules.countP fun rule => ¬ RecognizedWhole rule)
      rules.length).diagnostics = summary rules := by
  unfold totals summary
  by_cases passed : ∀ rule ∈ rules, RecognizedWhole rule
  · rw [if_pos (countP_eq_zero_iff.mpr passed), if_pos passed]
  · rw [if_neg (mt countP_eq_zero_iff.mp passed), if_neg passed]
    exact String.append_assoc

/-- What a run reports on rules by what it reports on each of them. -/
theorem run_of_reports
    (given : rules ≠ []) (each : List.Forall₂ (Reports quote) rules reports) :
    run rules quote = .ok
      { exitCode := if ∀ rule ∈ rules, RecognizedWhole rule then 0 else 1
        output := String.join (reports.map Report.output)
        diagnostics :=
          String.join (reports.map Report.diagnostics) ++ summary rules } := by
  have arguments : rules.isEmpty = false := by simpa using given
  have totalsOnly (failures count : Nat) :
      (totals failures count).exitCode = 0 ∧
        (totals failures count).output = "" := by
    unfold totals
    split <;> exact ⟨rfl, rfl⟩
  have inTurn :
      run rules quote = .ok (Report.concat reports ++
        totals (rules.countP fun rule => ¬ RecognizedWhole rule)
          rules.length) := by
    simp only [run, arguments, Bool.false_eq_true, if_false,
      mapM_reportRule each, bind, Except.bind, countP_exitCode each]
    rfl
  obtain ⟨exitCode, output⟩ := totalsOnly
    (rules.countP fun rule => ¬ RecognizedWhole rule) rules.length
  rw [inTurn, ← exitCode_concat each, ← Report.output_concat,
    ← Report.diagnostics_concat, ← diagnostics_totals]
  show Except.ok (Report.mk (max _ _) (_ ++ _) (_ ++ _)) = _
  rw [exitCode, output, Nat.max_zero, String.append_empty]

end

/-! ## A loop with one counter -/

/-- What a loop over the rules has written and counted so far. -/
structure Tally where
  output : String := ""
  diagnostics : String := ""
  failures : Nat := 0

def Tally.next (quote : String → String) (tally : Tally) (rule : String) :
    Except Fault Tally := do
  let output := tally.output ++ ("rule: " ++ rule ++ "\n")
  match ← check rule with
  | .ok tree =>
      let shown ← printer.print tree
      return { tally with output := output ++ (shown ++ "\n\n") }
  | .error problem =>
      return {
        output
        diagnostics := tally.diagnostics ++ (problem.message quote ++ "\n")
        failures := tally.failures + 1 }

def Tally.finish (rules : Nat) (tally : Tally) : Report :=
  if 0 < tally.failures then
    { exitCode := 1
      output := tally.output
      diagnostics := tally.diagnostics ++
        s!"{tally.failures} of {rules} rules failed\n" }
  else
    { output := tally.output, diagnostics := tally.diagnostics }

/-- A round writes the report on its rule behind what was written before, and
counts the rule if it fails. -/
theorem Reports.next_eq
    {rule : String} {report : Report}
    (reported : Reports quote rule report) (tally : Tally) :
    tally.next quote rule = .ok
      { output := tally.output ++ report.output
        diagnostics := tally.diagnostics ++ report.diagnostics
        failures := tally.failures + report.exitCode } := by
  cases reported with
  | tree computed _ printed =>
      simp only [Tally.next, computed, bind, Except.bind, printed,
        String.append_empty, Nat.add_zero, String.append_assoc]
      rfl
  | problem computed _ =>
      simp only [Tally.next, computed, bind, Except.bind]
      rfl

theorem foldlM_next
    {rules : List String} {reports : List Report}
    (each : List.Forall₂ (Reports quote) rules reports) (tally : Tally) :
    rules.foldlM (Tally.next quote) tally = .ok
      { output := tally.output ++ String.join (reports.map Report.output)
        diagnostics :=
          tally.diagnostics ++ String.join (reports.map Report.diagnostics)
        failures := tally.failures +
          rules.countP fun rule => ¬ RecognizedWhole rule } := by
  induction each generalizing tally with
  | nil =>
      simp only [List.foldlM_nil, List.map_nil, String.join_nil,
        String.append_empty, List.countP_nil, Nat.add_zero]
      rfl
  | @cons rule report rules reports first _ inductionHypothesis =>
      rw [List.foldlM_cons, first.next_eq]
      simp only [bind, Except.bind, inductionHypothesis, first.exitCode_eq,
        List.map_cons, String.join_cons, String.append_assoc,
        List.countP_cons]
      by_cases whole : RecognizedWhole rule
      · simp [whole]
      · simp [whole, Nat.add_assoc, Nat.add_comm 1]

/-- The loop ends with what the run reports. -/
theorem finish_eq_run
    (quote : String → String) {rules : List String} (given : rules ≠ []) :
    (rules.foldlM (Tally.next quote) {}).map (Tally.finish rules.length) =
      run rules quote := by
  obtain ⟨reports, each⟩ := exists_reports_each quote rules
  rw [foldlM_next each, run_of_reports given each]
  simp only [Except.map, Tally.finish, summary, String.empty_append,
    Nat.zero_add]
  by_cases passed : ∀ rule ∈ rules, RecognizedWhole rule
  · have noFailure := countP_eq_zero_iff.mpr passed
    rw [if_neg (Nat.not_lt.mpr (Nat.le_of_eq noFailure)), if_pos passed,
      if_pos passed, String.append_empty]
  · have someFailure := Nat.pos_of_ne_zero (mt countP_eq_zero_iff.mp passed)
    rw [if_pos someFailure, if_neg passed, if_neg passed]

/-- A run on given rules writes what it writes on each rule alone, one after the
other, and a line of totals behind the diagnostics if a rule fails. It exits with
1 just if some rule is not recognized over its whole length. The same comes of a
loop that counts the failures, and the rest of a rule behind what is recognized
of it can always be read. All this holds in whichever way texts are quoted. -/
theorem run_reports_each
    (quote : String → String) {rules : List String} (given : rules ≠ []) :
    ∃ reports,
      List.Forall₂
        (fun rule report =>
          Reports quote rule report ∧
            run [rule] quote = .ok
              { report with
                diagnostics := report.diagnostics ++ summary [rule] })
        rules reports ∧
      run rules quote = .ok
        { exitCode := if ∀ rule ∈ rules, RecognizedWhole rule then 0 else 1
          output := String.join (reports.map Report.output)
          diagnostics :=
            String.join (reports.map Report.diagnostics) ++ summary rules } ∧
      (rules.foldlM (Tally.next quote) {}).map (Tally.finish rules.length) =
        run rules quote ∧
      ∀ rule stop, ruleRecognizer.recognize rule = some stop →
        IsBoundary rule.toList stop := by
  obtain ⟨reports, each⟩ := exists_reports_each quote rules
  refine ⟨reports, ?_, run_of_reports given each, finish_eq_run quote given, ?_⟩
  · apply each.imp
    intro rule report reported
    have alone :=
      run_of_reports (List.cons_ne_nil rule []) (.cons reported .nil)
    refine ⟨reported, ?_⟩
    rw [alone]
    simp only [List.map_cons, List.map_nil, String.join_cons,
      String.join_nil, String.append_empty, reported.exitCode_eq,
      List.forall_mem_singleton]
  · intro rule stop found
    exact (Recognizer.bounds_of_matchIn found).2.2

/-- A rule, a text that is none, and a rule with a letter and a mark behind it that
does not show by itself. -/
theorem run_reports_each_of_three :
    let rules := ["n = 1", "x", "n = 1\u0928\u094d"]
    rules ≠ [] ∧
      ∃ reports,
        List.Forall₂ (Reports Quoted.encode) rules reports ∧
        run rules = .ok
          { exitCode := 1
            output := String.join (reports.map Report.output)
            diagnostics :=
              String.join (reports.map Report.diagnostics) ++
                "2 of 3 rules failed\n" } ∧
        String.join (reports.map Report.output) =
          "rule: n = 1\n(Rule\n  (Condition\n    (Operand n)\n    (RelOp =)\n"
            ++ "    (Ranges\n      (Integer 1)\n    )\n  )\n)\n\n"
            ++ "rule: x\nrule: n = 1\u0928\u094d\n" ∧
        String.join (reports.map Report.diagnostics) ++
            "2 of 3 rules failed\n" =
          "warning: not a plural rule: \"x\"\n"
            ++ "warning: unexpected input at 1:6: \"\u0928\\u\x7b94d\x7d\"\n"
            ++ "2 of 3 rules failed\n" := by
  intro rules
  have given : rules ≠ [] := List.cons_ne_nil _ _
  have failing : ¬ ∀ rule ∈ rules, RecognizedWhole rule := by decide +kernel
  have total : summary rules = "2 of 3 rules failed\n" := by decide +kernel
  have computed :
      (run rules).toOption = some
        { exitCode := 1
          output :=
            "rule: n = 1\n(Rule\n  (Condition\n    (Operand n)\n    (RelOp =)\n"
              ++ "    (Ranges\n      (Integer 1)\n    )\n  )\n)\n\n"
              ++ "rule: x\nrule: n = 1\u0928\u094d\n"
          diagnostics :=
            "warning: not a plural rule: \"x\"\n"
              ++ "warning: unexpected input at 1:6: \"\u0928\\u\x7b94d\x7d\"\n"
              ++ "2 of 3 rules failed\n" } := by
    decide +kernel
  obtain ⟨reports, each, reported, _⟩ := run_reports_each Quoted.encode given
  rw [if_neg failing, total] at reported
  rw [reported] at computed
  have same := Option.some.inj computed
  rw [Report.mk.injEq] at same
  exact ⟨given, reports, each.imp fun _ _ alone => alone.1, reported,
    same.2.1, same.2.2⟩

end PluralRule

end TextGrammar
