import JsxLint.Lint
import Mathlib.Tactic.Common

/-! What a rule reports at a site: every diagnostic of a rule has the message, the data and the
severity of the rule, and stands at the place of what the rule found there. Whether a finding is
justified is not asked here. -/
namespace JsxLint

namespace RuleId

def template : RuleId → String
  | booleanNaming => BooleanNaming.template
  | derivedConditionalNaming => DerivedConditionalNaming.template
  | eventHandlerNaming => EventHandlerNaming.template
  | jsxStringBraces => JsxStringBraces.template
  | noComplexJsxConditions => NoComplexJsxConditions.template
  | noInlineStyles => NoInlineStyles.template
  | propInterfaceNaming => PropInterfaceNaming.template

def keys : RuleId → List String
  | booleanNaming => ["context", "name", "suggested", "prefixes"]
  | derivedConditionalNaming => ["name", "suggested"]
  | eventHandlerNaming => ["context", "name", "suggested"]
  | jsxStringBraces => ["attribute", "value"]
  | noComplexJsxConditions => ["context"]
  | noInlineStyles => ["attribute", "value"]
  | propInterfaceNaming => ["name", "actual", "expected"]

end RuleId

/-- The diagnostic is of the form that all diagnostics of the rule have. -/
structure Diagnostic.HasForm (rule : RuleId) (d : Diagnostic) : Prop where
  name : d.rule = rule.name
  template : d.template = rule.template
  keys : d.data.map Prod.fst = rule.keys
  message : d.message = Template.render d.template d.data
  severity : d.severity = .warning
  fixes : d.fixes = [] ∨ rule = .jsxStringBraces ∧ ∃ fix, d.fixes = [fix] ∧ fix.span = d.span

theorem BooleanNaming.check_sound {o : Options} {site : Site} {d : Diagnostic}
    (h : d ∈ check o site) : d.HasForm .booleanNaming ∧
      ∃ holder ident, declared? o site = some (holder, ident) ∧ d.span = ident.span := by
  obtain ⟨⟨holder, ident⟩, hdeclared, hreport⟩ :=
    Option.bind_eq_some_iff.mp (Option.mem_toList.mp h)
  obtain ⟨proposal, -, rfl⟩ := Option.map_eq_some_iff.mp hreport
  exact ⟨⟨rfl, rfl, rfl, rfl, rfl, Or.inl rfl⟩, holder, ident, hdeclared, rfl⟩

theorem NoInlineStyles.check_sound {o : Options} {source : String} {site : Site} {d : Diagnostic}
    (h : d ∈ check o source site) : d.HasForm .noInlineStyles ∧
      ∃ attr ∈ site.node.attributeItems, d.span = attr.span := by
  obtain ⟨attr, hattr, hreport⟩ := List.mem_filterMap.mp h
  obtain ⟨name, -, hreport⟩ := Option.bind_eq_some_iff.mp hreport
  split at hreport
  · obtain ⟨value, -, hreport⟩ := Option.bind_eq_some_iff.mp hreport
    obtain rfl := Option.some.inj hreport
    exact ⟨⟨rfl, rfl, rfl, rfl, rfl, Or.inl rfl⟩, attr, hattr, rfl⟩
  · cases hreport

theorem JsxStringBraces.check_sound {source : String} {site : Site} {d : Diagnostic}
    (h : d ∈ check source site) : d.HasForm .jsxStringBraces ∧
      ∃ attr ∈ site.node.attributeItems, ∃ value, attr.attributeValue? = some value ∧
        d.span = value.span := by
  obtain ⟨attr, hattr, hreport⟩ := List.mem_filterMap.mp h
  obtain ⟨name, -, hreport⟩ := Option.bind_eq_some_iff.mp hreport
  obtain ⟨value, hvalue, hreport⟩ := Option.bind_eq_some_iff.mp hreport
  split at hreport
  · split at hreport
    · obtain rfl := Option.some.inj hreport
      exact ⟨⟨rfl, rfl, rfl, rfl, rfl, Or.inr ⟨rfl, _, rfl, rfl⟩⟩, attr, hattr, _, hvalue, rfl⟩
    · obtain rfl := Option.some.inj hreport
      exact ⟨⟨rfl, rfl, rfl, rfl, rfl, Or.inl rfl⟩, attr, hattr, _, hvalue, rfl⟩
  · cases hreport

theorem NoComplexJsxConditions.check_sound {site : Site} {d : Diagnostic} (h : d ∈ check site) :
    d.HasForm .noComplexJsxConditions ∧ d.span = site.node.span := by
  rw [check, Option.mem_toList, report?] at h
  simp only [Option.bind_eq_bind, Option.bind_eq_some_iff] at h
  obtain ⟨condition, -, placement, -, violation, -, hreport⟩ := h
  obtain rfl := Option.some.inj hreport
  exact ⟨⟨rfl, rfl, rfl, rfl, rfl, Or.inl rfl⟩, rfl⟩

theorem EventHandlerNaming.check_sound {site : Site} {d : Diagnostic} (h : d ∈ check site) :
    d.HasForm .eventHandlerNaming ∧
      ∃ role ident, declared? site = some (role, ident) ∧ d.span = ident.span := by
  rw [check, Option.mem_toList, Option.bind_eq_some_iff] at h
  obtain ⟨⟨role, ident⟩, hdeclared, hreport⟩ := h
  simp only [report?, Option.bind_eq_bind, Option.bind_eq_some_iff] at hreport
  obtain ⟨expected, -, hreport⟩ := hreport
  split at hreport
  · cases hreport
  · obtain rfl := Option.some.inj hreport
    exact ⟨⟨rfl, rfl, rfl, rfl, rfl, Or.inl rfl⟩, role, ident, hdeclared, rfl⟩

theorem PropInterfaceNaming.check_sound {source : String} {site : Site} {d : Diagnostic}
    (h : d ∈ check source site) : d.HasForm .propInterfaceNaming ∧
      ∃ component props, declared? source site = some component ∧
        component.props? = some props ∧ d.span = props.span := by
  obtain ⟨component, hdeclared, hreport⟩ := Option.bind_eq_some_iff.mp (Option.mem_toList.mp h)
  obtain ⟨props, hprops, hreport⟩ := Option.bind_eq_some_iff.mp hreport
  split at hreport
  · obtain rfl := Option.some.inj hreport
    exact ⟨⟨rfl, rfl, rfl, rfl, rfl, Or.inl rfl⟩, component, props, hdeclared, hprops, rfl⟩
  · cases hreport

theorem DerivedConditionalNaming.hasForm_report (name : String) (span : Span) :
    (report name span).HasForm .derivedConditionalNaming :=
  ⟨rfl, rfl, rfl, rfl, rfl, Or.inl rfl⟩

end JsxLint
