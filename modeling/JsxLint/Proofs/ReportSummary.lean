import JsxLint.Proofs.RuleFindings

/-! The questions asked of a report. The two counts divide its diagnostics between them, and there
are errors if and only if some are counted. A report has warnings as soon as it has anything in it,
so with errors alone it has warnings though none is counted. A run reports warnings only; the two
questions come apart when severities are set afterwards. -/
namespace JsxLint

namespace Report

lemma not_error_iff_warning (d : Diagnostic) : ¬ d.severity = .error ↔ d.severity = .warning := by
  cases d.severity <;> simp

/-- Every diagnostic is counted once. -/
theorem errorCount_add_warningCount (r : Report) :
    r.errorCount + r.warningCount = r.diagnostics.length := by
  have hsplit := List.length_eq_countP_add_countP (l := r.diagnostics) (·.severity = .error)
  simp only [decide_eq_true_eq, not_error_iff_warning] at hsplit
  exact hsplit.symm

lemma hasErrors_iff (r : Report) : r.hasErrors = true ↔ 0 < r.errorCount := by
  rw [hasErrors, errorCount, List.countP_pos_iff, List.any_eq_true]

lemma warningCount_pos_iff (r : Report) :
    0 < r.warningCount ↔ ∃ d ∈ r.diagnostics, d.severity = .warning := by
  simp only [warningCount, List.countP_pos_iff, decide_eq_true_eq]

lemma hasWarnings_iff (r : Report) :
    r.hasWarnings = true ↔ 0 < r.errorCount + r.warningCount := by
  rw [errorCount_add_warningCount, hasWarnings, List.length_pos_iff]
  simp

def regrade (r : Report) (severity : Diagnostic → Severity) : Report :=
  ⟨r.diagnostics.map fun d => d.withSeverity (severity d)⟩

/-- Setting severities moves diagnostics from one count to the other. -/
lemma counts_regrade (r : Report) (severity : Diagnostic → Severity) :
    (r.regrade severity).errorCount + (r.regrade severity).warningCount =
      r.errorCount + r.warningCount := by
  rw [errorCount_add_warningCount, errorCount_add_warningCount, regrade, List.length_map]

end Report

/-- A run reports no errors. -/
lemma Config.errorCount_lint (c : Config) (source : String) (root : Node) :
    (c.lint source root).errorCount = 0 := by
  rw [Report.errorCount, List.countP_eq_zero]
  intro d hd
  obtain ⟨rule, -, hform⟩ := exists_rule_of_mem_visitAll hd
  simp [hform.severity]

namespace Report

/-- There are errors exactly if one is counted. Having warnings is having anything, so it disagrees
with the count of warnings where there are errors alone. -/
theorem summaries_agree_unless_only_errors (r : Report) :
    r.errorCount + r.warningCount = r.diagnostics.length ∧
    (r.hasErrors = true ↔ 0 < r.errorCount) ∧
    (r.hasWarnings = true ↔ 0 < r.errorCount + r.warningCount) ∧
    ((r.hasWarnings = true ↔ 0 < r.warningCount) ↔
      r.diagnostics = [] ∨ ∃ d ∈ r.diagnostics, d.severity = .warning) ∧
    ∀ (c : Config) (source : String) (root : Node) (severity : Diagnostic → Severity),
      ((c.lint source root).regrade severity).hasWarnings = true ↔
        0 < (c.lint source root).warningCount := by
  refine ⟨r.errorCount_add_warningCount, r.hasErrors_iff, r.hasWarnings_iff, ?_, ?_⟩
  · rw [← warningCount_pos_iff, ← List.length_eq_zero_iff, ← errorCount_add_warningCount,
      hasWarnings_iff]
    omega
  · intro c source root severity
    rw [hasWarnings_iff, counts_regrade, c.errorCount_lint, Nat.zero_add]

theorem summaries_agree_unless_only_errors_oneError :
    let r : Report := ⟨[(Diagnostic.ofTemplate "a" ⟨0, 1⟩ "m").withSeverity .error]⟩
    r.errorCount = 1 ∧ r.warningCount = 0 ∧ r.hasWarnings = true ∧
      ¬ (r.hasWarnings = true ↔ 0 < r.warningCount) := by
  intro r
  have herrors : r.errorCount = 1 := by decide
  have hwarnings : r.warningCount = 0 := by decide
  obtain ⟨-, -, hany, hagree, -⟩ := summaries_agree_unless_only_errors r
  refine ⟨herrors, hwarnings, hany.mpr (by omega), fun hsame => ?_⟩
  rcases hagree.mp hsame with hempty | hwarning
  · cases hempty
  · have hcounted := r.warningCount_pos_iff.mpr hwarning
    omega

end Report

end JsxLint
