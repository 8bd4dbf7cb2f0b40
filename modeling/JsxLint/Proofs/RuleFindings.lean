import JsxLint.Proofs.DerivedWalk
import JsxLint.Proofs.DiagnosticForm

/-! Which findings of a run belong to which rule. Every diagnostic carries the name of the rule
that made it, and no rule sees what another one does: the findings of a rule in a run are those it
makes by itself, `derived-conditional-naming` in its own walk and any other rule site by site. -/
namespace JsxLint

namespace Config

/-- The findings of one rule at a site; `gates` are those of `derived-conditional-naming`. -/
def findingsOf (c : Config) (source : String) (site : Site) (gates : List Diagnostic) :
    RuleId → List Diagnostic
  | .booleanNaming => c.booleanNaming.elim [] (BooleanNaming.check · site)
  | .derivedConditionalNaming => gates
  | .eventHandlerNaming => if c.eventHandlerNaming then EventHandlerNaming.check site else []
  | .jsxStringBraces => if c.jsxStringBraces then JsxStringBraces.check source site else []
  | .noComplexJsxConditions =>
    if c.noComplexJsxConditions then NoComplexJsxConditions.check site else []
  | .noInlineStyles => c.noInlineStyles.elim [] (NoInlineStyles.check · source site)
  | .propInterfaceNaming =>
    if c.propInterfaceNaming then PropInterfaceNaming.check source site else []

def reportOrder : List RuleId :=
  [.booleanNaming, .noInlineStyles, .jsxStringBraces, .noComplexJsxConditions,
    .derivedConditionalNaming, .eventHandlerNaming, .propInterfaceNaming]

lemma findings_eq_flatMap (c : Config) (source : String) (site : Site) (gates : List Diagnostic) :
    c.findings source site gates = reportOrder.flatMap (c.findingsOf source site gates) := by
  simp only [findings, reportOrder, List.flatMap_cons, List.flatMap_nil, findingsOf,
    List.append_nil, List.append_assoc]

lemma hasForm_of_mem_findingsOf {c : Config} {source : String} {site : Site}
    {gates : List Diagnostic} {rule : RuleId} {d : Diagnostic}
    (hgates : ∀ d ∈ gates, d.HasForm .derivedConditionalNaming)
    (h : d ∈ c.findingsOf source site gates rule) : d.HasForm rule := by
  cases rule with
  | derivedConditionalNaming => exact hgates d h
  | booleanNaming =>
    cases hc : c.booleanNaming with
    | none => simp [findingsOf, hc] at h
    | some o => exact (BooleanNaming.check_sound (by simpa [findingsOf, hc] using h)).1
  | noInlineStyles =>
    cases hc : c.noInlineStyles with
    | none => simp [findingsOf, hc] at h
    | some o => exact (NoInlineStyles.check_sound (by simpa [findingsOf, hc] using h)).1
  | eventHandlerNaming => exact (EventHandlerNaming.check_sound (List.mem_ite_nil_right.mp h).2).1
  | jsxStringBraces => exact (JsxStringBraces.check_sound (List.mem_ite_nil_right.mp h).2).1
  | noComplexJsxConditions =>
    exact (NoComplexJsxConditions.check_sound (List.mem_ite_nil_right.mp h).2).1
  | propInterfaceNaming =>
    exact (PropInterfaceNaming.check_sound (List.mem_ite_nil_right.mp h).2).1

/-- At one site, the findings under the name of a rule are those of the rule. -/
lemma filter_findings (c : Config) (rule : RuleId) (source : String) (site : Site)
    {gates : List Diagnostic} (hgates : ∀ d ∈ gates, d.HasForm .derivedConditionalNaming) :
    (c.findings source site gates).filter (·.rule = rule.name) =
      c.findingsOf source site gates rule := by
  have hfilter : ∀ other, (c.findingsOf source site gates other).filter (·.rule = rule.name) =
      if other = rule then c.findingsOf source site gates rule else [] := by
    intro other
    split
    · rename_i hsame
      subst hsame
      exact List.filter_eq_self.mpr fun d hd =>
        decide_eq_true (hasForm_of_mem_findingsOf hgates hd).name
    · rename_i hother
      refine List.filter_eq_nil_iff.mpr fun d hd hname => hother ?_
      rw [decide_eq_true_eq, (hasForm_of_mem_findingsOf hgates hd).name] at hname
      exact RuleId.name_injective hname
  rw [findings_eq_flatMap, List.filter_flatMap]
  simp only [hfilter]
  cases rule <;> simp [reportOrder]

end Config

namespace DerivedConditionalNaming

lemma hasForm_of_mem_visit {site : Site} {store : DerivedStore} {d : Diagnostic}
    (h : d ∈ (visit site store).1) : d.HasForm .derivedConditionalNaming := by
  obtain ⟨name, span, rfl, -⟩ := visit_sound h
  exact hasForm_report name span

lemma hasForm_of_mem_finish {store : DerivedStore} {d : Diagnostic} (h : d ∈ (finish store).1) :
    d.HasForm .derivedConditionalNaming := by
  rw [finish_eq] at h
  obtain ⟨gate, -, span, rfl, -⟩ := resolveDeferred_sound _ h
  exact hasForm_report gate.name span

lemma filter_visitAll (c : Config) (hon : c.derivedConditionalNaming = true) (source : String)
    (sites : List Site) (store : DerivedStore) :
    (c.visitAll source sites store).filter (·.rule = RuleId.derivedConditionalNaming.name) =
      (walk sites store).1 ++ (finish (walk sites store).2).1 := by
  induction sites generalizing store with
  | nil =>
    rw [Config.visitAll, if_pos hon, walk, List.nil_append, List.filter_eq_self]
    exact fun d hd => decide_eq_true (hasForm_of_mem_finish hd).name
  | cons site sites ih =>
    rw [Config.visitAll, if_pos hon, walk, List.filter_append, ih, List.append_assoc,
      c.filter_findings _ source site fun d => hasForm_of_mem_visit]
    rfl

/-- With the rule on, its findings in a run are those of its own walk. -/
theorem ofRule_lint (c : Config) (hon : c.derivedConditionalNaming = true) (source : String)
    (root : Node) :
    (c.lint source root).ofRule RuleId.derivedConditionalNaming.name = run root.sites :=
  filter_visitAll c hon source root.sites .empty

end DerivedConditionalNaming

namespace Config

def findingsOver (c : Config) (source : String) (sites : List Site) : RuleId → List Diagnostic
  | .derivedConditionalNaming =>
    if c.derivedConditionalNaming then DerivedConditionalNaming.run sites else []
  | rule => sites.flatMap fun site => c.findingsOf source site [] rule

lemma findingsOver_of_ne {rule : RuleId} (hrule : rule ≠ .derivedConditionalNaming) (c : Config)
    (source : String) (sites : List Site) :
    c.findingsOver source sites rule =
      sites.flatMap fun site => c.findingsOf source site [] rule := by
  cases rule with
  | derivedConditionalNaming => exact absurd rfl hrule
  | _ => rfl

lemma findingsOf_gates {rule : RuleId} (hrule : rule ≠ .derivedConditionalNaming) (c : Config)
    (source : String) (site : Site) (gates : List Diagnostic) :
    c.findingsOf source site gates rule = c.findingsOf source site [] rule := by
  cases rule with
  | derivedConditionalNaming => exact absurd rfl hrule
  | _ => rfl

/-- A rule that is off finds nothing. -/
lemma enables_of_mem_findingsOf {c : Config} {source : String} {site : Site}
    {gates : List Diagnostic} {rule : RuleId} {d : Diagnostic}
    (hrule : rule ≠ .derivedConditionalNaming) (h : d ∈ c.findingsOf source site gates rule) :
    c.enables rule = true := by
  cases rule with
  | derivedConditionalNaming => exact absurd rfl hrule
  | booleanNaming =>
    cases hc : c.booleanNaming with
    | none => simp [findingsOf, hc] at h
    | some o => simp [enables, hc]
  | noInlineStyles =>
    cases hc : c.noInlineStyles with
    | none => simp [findingsOf, hc] at h
    | some o => simp [enables, hc]
  | _ => exact (List.mem_ite_nil_right.mp h).1

lemma filter_visitAll_of_ne {rule : RuleId} (hrule : rule ≠ .derivedConditionalNaming) (c : Config)
    (source : String) (sites : List Site) (store : DerivedStore) :
    (c.visitAll source sites store).filter (·.rule = rule.name) =
      sites.flatMap fun site => c.findingsOf source site [] rule := by
  induction sites generalizing store with
  | nil =>
    rw [visitAll, List.flatMap_nil]
    split
    · refine List.filter_eq_nil_iff.mpr fun d hd hname => hrule ?_
      rw [decide_eq_true_eq, (DerivedConditionalNaming.hasForm_of_mem_finish hd).name] at hname
      exact (RuleId.name_injective hname).symm
    · rfl
  | cons site sites ih =>
    rw [visitAll, List.flatMap_cons]
    split
    · rw [List.filter_append, ih, c.filter_findings rule source site
        fun d => DerivedConditionalNaming.hasForm_of_mem_visit, findingsOf_gates hrule]
    · rw [List.filter_append, ih, c.filter_findings rule source site (by simp)]

lemma exists_rule_of_mem_findings {c : Config} {source : String} {site : Site}
    {gates : List Diagnostic} {d : Diagnostic}
    (hgates : ∀ d ∈ gates, d.HasForm .derivedConditionalNaming ∧ c.derivedConditionalNaming = true)
    (h : d ∈ c.findings source site gates) :
    ∃ rule, c.enables rule = true ∧ d.HasForm rule := by
  rw [findings_eq_flatMap] at h
  obtain ⟨rule, -, hd⟩ := List.mem_flatMap.mp h
  refine ⟨rule, ?_, hasForm_of_mem_findingsOf (fun d hd => (hgates d hd).1) hd⟩
  by_cases hrule : rule = .derivedConditionalNaming
  · subst hrule
    exact (hgates d hd).2
  · exact enables_of_mem_findingsOf hrule hd

/-- Every finding of a run has the form of a rule that is on. -/
theorem exists_rule_of_mem_visitAll {c : Config} {source : String} {sites : List Site}
    {store : DerivedStore} {d : Diagnostic} (h : d ∈ c.visitAll source sites store) :
    ∃ rule, c.enables rule = true ∧ d.HasForm rule := by
  induction sites generalizing store with
  | nil =>
    rw [visitAll] at h
    obtain ⟨hon, hd⟩ := List.mem_ite_nil_right.mp h
    exact ⟨.derivedConditionalNaming, hon, DerivedConditionalNaming.hasForm_of_mem_finish hd⟩
  | cons site sites ih =>
    rw [visitAll] at h
    split at h
    · rename_i hon
      rcases List.mem_append.mp h with h | h
      · exact exists_rule_of_mem_findings
          (fun d hd => ⟨DerivedConditionalNaming.hasForm_of_mem_visit hd, hon⟩) h
      · exact ih h
    · rcases List.mem_append.mp h with h | h
      · exact exists_rule_of_mem_findings (by simp) h
      · exact ih h

lemma enables_of_mem_ofRule {c : Config} {rule : RuleId} {source : String} {root : Node}
    {d : Diagnostic} (h : d ∈ (c.lint source root).ofRule rule.name) : c.enables rule = true := by
  obtain ⟨hd, hname⟩ := List.mem_filter.mp h
  obtain ⟨other, hon, hform⟩ := exists_rule_of_mem_visitAll hd
  rw [decide_eq_true_eq, hform.name] at hname
  exact RuleId.name_injective hname ▸ hon

/-- The findings of a rule in a run are those it makes by itself. -/
theorem ofRule_lint_eq (c : Config) (rule : RuleId) (source : String) (root : Node) :
    (c.lint source root).ofRule rule.name = c.findingsOver source root.sites rule := by
  by_cases hrule : rule = .derivedConditionalNaming
  · subst hrule
    rw [findingsOver]
    split
    · rename_i hon
      exact DerivedConditionalNaming.ofRule_lint c hon source root
    · rename_i hoff
      exact List.eq_nil_iff_forall_not_mem.mpr fun d hd => hoff (enables_of_mem_ofRule hd)
  · rw [findingsOver_of_ne hrule]
    exact filter_visitAll_of_ne hrule c source root.sites .empty

/-- The configuration with the setting of one rule, and every other rule off. -/
def only (c : Config) : RuleId → Config
  | .booleanNaming => { allOff with booleanNaming := c.booleanNaming }
  | .derivedConditionalNaming =>
    { allOff with derivedConditionalNaming := c.derivedConditionalNaming }
  | .eventHandlerNaming => { allOff with eventHandlerNaming := c.eventHandlerNaming }
  | .jsxStringBraces => { allOff with jsxStringBraces := c.jsxStringBraces }
  | .noComplexJsxConditions => { allOff with noComplexJsxConditions := c.noComplexJsxConditions }
  | .noInlineStyles => { allOff with noInlineStyles := c.noInlineStyles }
  | .propInterfaceNaming => { allOff with propInterfaceNaming := c.propInterfaceNaming }

lemma enables_only (c : Config) (rule other : RuleId) :
    (c.only rule).enables other = (decide (other = rule) && c.enables other) := by
  cases rule <;> cases other <;> rfl

lemma findingsOver_only (c : Config) (rule : RuleId) (source : String) (sites : List Site) :
    (c.only rule).findingsOver source sites rule = c.findingsOver source sites rule := by
  cases rule <;> rfl

/-- What a rule reports in a run, in the order of the run, is all that a run with the setting of
this rule alone reports. -/
theorem ofRule_lint_eq_lint_only (c : Config) (rule : RuleId) (source : String) (root : Node) :
    (c.lint source root).ofRule rule.name = ((c.only rule).lint source root).diagnostics ∧
      (c.enables rule = true ∨ (c.lint source root).ofRule rule.name = []) := by
  constructor
  · have hall : ((c.only rule).lint source root).ofRule rule.name =
        ((c.only rule).lint source root).diagnostics := by
      refine List.filter_eq_self.mpr fun d hd => ?_
      obtain ⟨other, hon, hform⟩ := exists_rule_of_mem_visitAll hd
      rw [enables_only, Bool.and_eq_true, decide_eq_true_eq] at hon
      exact decide_eq_true (hon.1 ▸ hform.name)
    rw [← hall, ofRule_lint_eq, ofRule_lint_eq, findingsOver_only]
  · cases hoff : c.enables rule with
    | true => exact Or.inl rfl
    | false =>
      refine Or.inr (List.eq_nil_iff_forall_not_mem.mpr fun d hd => ?_)
      rw [enables_of_mem_ofRule hd] at hoff
      cases hoff

end Config

end JsxLint
