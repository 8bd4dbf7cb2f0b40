import JsxLint.Proofs.Replacement
import JsxLint.Proofs.RuleFindings

/-! Linting and then fixing applies every fix that is offered. Only `jsx-string-braces` offers
fixes, one for each bare string that has a literal, in the order in which the run meets the
strings. If the strings stand at disjoint places of the text, all of them are replaced and nothing
else is changed. The text need not be the one that was parsed, as long as the places fit it. -/
namespace JsxLint

structure BareString where
  value : String
  span : Span
  deriving DecidableEq, Repr

def Node.bareString? (attr : Node) : Option BareString := do
  let _ ← attr.attributeName?
  let .mk (.stringLiteral value) span _ ← attr.attributeValue? | none
  return ⟨value, span⟩

/-- The bare strings among the attributes of all elements of a tree, in source order. -/
def Node.bareStrings (root : Node) : List BareString :=
  root.sites.flatMap fun site => site.node.attributeItems.filterMap Node.bareString?

namespace JsxStringBraces

def fix? (source : String) (s : BareString) : Option Fix :=
  (literal? (Text.slice source s.span) s.value).map (fix s.span)

/-- What a bare string of the text is replaced by: its literal in braces. -/
def braced? (source : String) (s : BareString) : Option (Span × List Char) :=
  (literal? (Text.slice source s.span) s.value).map fun literal =>
    (s.span, ("\x7b" ++ literal ++ "\x7d").toList)

lemma map_toReplacement_fix? (source : String) (s : BareString) :
    (fix? source s).map Fix.toReplacement = braced? source s := by
  rw [fix?, braced?, Option.map_map]
  rfl

lemma span_of_fix? {source : String} {s : BareString} {f : Fix} (h : fix? source s = some f) :
    f.span = s.span := by
  obtain ⟨literal, -, rfl⟩ := Option.map_eq_some_iff.mp h
  rfl

/-- The report on an attribute carries the fix of its bare string. -/
lemma fixes_report? (source : String) (attr : Node) :
    (report? source attr).toList.flatMap (·.fixes) =
      (attr.bareString?.bind (fix? source)).toList := by
  unfold report? Node.bareString?
  cases attr.attributeName? with
  | none => rfl
  | some name =>
    simp only [Option.bind_eq_bind, Option.bind_some]
    cases attr.attributeValue? with
    | none => rfl
    | some value =>
      obtain ⟨kind, span, parts⟩ := value
      cases kind with
      | stringLiteral value =>
        change _ = ((literal? (Text.slice source span) value).map (fix span)).toList
        simp only [Option.bind_some]
        cases literal? (Text.slice source span) value with
        | none => rfl
        | some literal => rfl
      | _ => rfl

lemma fixes_check (source : String) (site : Site) :
    (check source site).flatMap (·.fixes) =
      (site.node.attributeItems.filterMap Node.bareString?).filterMap (fix? source) := by
  rw [check, List.filterMap_filterMap]
  simp only [List.filterMap_eq_flatMap_toList, List.flatMap_assoc, fixes_report?]

end JsxStringBraces

namespace Config

lemma fixes_of_rule_ne {c : Config} {source : String} {root : Node} {d : Diagnostic}
    (h : d ∈ (c.lint source root).diagnostics) (hrule : d.rule ≠ RuleId.jsxStringBraces.name) :
    d.fixes = [] := by
  obtain ⟨rule, -, hform⟩ := exists_rule_of_mem_visitAll h
  rcases hform.fixes with hnone | ⟨rfl, -⟩
  · exact hnone
  · exact absurd hform.name hrule

/-- All fixes of a run are offered by one rule. -/
lemma fixes_lint_eq_ofRule (c : Config) (source : String) (root : Node) :
    (c.lint source root).fixes =
      ((c.lint source root).ofRule RuleId.jsxStringBraces.name).flatMap (·.fixes) := by
  have hnone := fun d => @fixes_of_rule_ne c source root d
  rw [Report.fixes, Report.ofRule]
  generalize (c.lint source root).diagnostics = found at hnone
  induction found with
  | nil => rfl
  | cons d found ih =>
    have hfound := ih fun d' hd' => hnone d' (List.mem_cons_of_mem d hd')
    rw [List.flatMap_cons, hfound]
    by_cases hrule : d.rule = RuleId.jsxStringBraces.name
    · rw [List.filter_cons_of_pos (by simpa using hrule), List.flatMap_cons]
    · rw [List.filter_cons_of_neg (by simpa using hrule),
        hnone d List.mem_cons_self hrule, List.nil_append]

/-- The fixes of a run are those of the bare strings of the tree, in source order. -/
theorem fixes_lint {c : Config} (hon : c.jsxStringBraces = true) (source : String) (root : Node) :
    (c.lint source root).fixes = root.bareStrings.filterMap (JsxStringBraces.fix? source) := by
  rw [fixes_lint_eq_ofRule, ofRule_lint_eq, findingsOver_of_ne (by decide), Node.bareStrings,
    List.filterMap_flatMap, List.flatMap_assoc]
  simp only [findingsOf, if_pos hon, JsxStringBraces.fixes_check]

/-- Where the bare strings fit the text at disjoint places, fixing replaces each that has a literal
by that literal in braces and keeps every other byte. -/
theorem applyFixes_lint_replaces_bareStrings (c : Config) (hon : c.jsxStringBraces = true)
    (source : String) (root : Node)
    (hfits : ∀ s ∈ root.bareStrings, s.span.Fits source.toList)
    (hdisjoint : root.bareStrings.Pairwise fun a b => a.span.Disjoint b.span) :
    (c.lint source root).fixes.map Fix.toReplacement =
        root.bareStrings.filterMap (JsxStringBraces.braced? source) ∧
      Text.Replaces (root.bareStrings.filterMap (JsxStringBraces.braced? source)) source
        ((c.lint source root).applyFixes source) := by
  have hbraced : (c.lint source root).fixes.map Fix.toReplacement =
      root.bareStrings.filterMap (JsxStringBraces.braced? source) := by
    rw [fixes_lint hon, List.map_filterMap]
    simp only [JsxStringBraces.map_toReplacement_fix?]
  refine ⟨hbraced, ?_⟩
  rw [← hbraced]
  apply Fix.replaces_apply
  · intro f hf
    rw [fixes_lint hon] at hf
    obtain ⟨s, hs, hfix⟩ := List.mem_filterMap.mp hf
    exact JsxStringBraces.span_of_fix? hfix ▸ hfits s hs
  · rw [fixes_lint hon, List.pairwise_filterMap]
    refine hdisjoint.imp fun hab f hf g hg => ?_
    rw [JsxStringBraces.span_of_fix? hf, JsxStringBraces.span_of_fix? hg]
    exact hab

/-- Written `<A b="é" c={<d e='x&y' f="\" />} />`: an element inside the value of an attribute, a
string with an entity and one with a backslash. -/
def nestedStrings : Node :=
  .mk .program ⟨0, 36⟩ [
    .mk .element ⟨0, 36⟩ [
      .mk .opening ⟨0, 36⟩ [
        .mk (.identifier "A") ⟨1, 2⟩ [],
        .mk (.jsxAttribute none) ⟨3, 9⟩ [
          .mk (.jsxWord "b") ⟨3, 4⟩ [], .mk (.stringLiteral "é") ⟨5, 9⟩ []],
        .mk (.jsxAttribute none) ⟨10, 33⟩ [
          .mk (.jsxWord "c") ⟨10, 11⟩ [],
          .mk .container ⟨12, 33⟩ [
            .mk .element ⟨13, 32⟩ [
              .mk .opening ⟨13, 32⟩ [
                .mk (.jsxWord "d") ⟨14, 15⟩ [],
                .mk (.jsxAttribute none) ⟨16, 23⟩ [
                  .mk (.jsxWord "e") ⟨16, 17⟩ [], .mk (.stringLiteral "x&y") ⟨18, 23⟩ []],
                .mk (.jsxAttribute none) ⟨24, 29⟩ [
                  .mk (.jsxWord "f") ⟨24, 25⟩ [], .mk (.stringLiteral "\\") ⟨26, 29⟩ []]]]]]]]]

theorem applyFixes_lint_replaces_bareStrings_nestedStrings :
    let source := "<A b=\"é\" c=\x7b<d e='x&y' f=\"\\\" />\x7d />"
    let report := Config.allOn.lint source nestedStrings
    report.fixes.length = 2 ∧
      report.applyFixes source =
        "<A b=\x7b\"é\"\x7d c=\x7b<d e='x&y' f=\x7b\"\\\\\"\x7d />\x7d />" ∧
      Text.Replaces (nestedStrings.bareStrings.filterMap (JsxStringBraces.braced? source)) source
        (report.applyFixes source) := by
  intro source report
  have hfixes : report.fixes =
      [JsxStringBraces.fix ⟨5, 9⟩ "\"é\"", JsxStringBraces.fix ⟨26, 29⟩ "\"\\\\\""] := by
    decide +kernel
  refine ⟨by rw [hfixes]; rfl, ?_, ?_⟩
  · rw [Report.applyFixes, Fix.apply, hfixes, List.mergeSort_of_pairwise (by decide)]
    decide +kernel
  · exact (applyFixes_lint_replaces_bareStrings Config.allOn rfl source nestedStrings
      (by decide +kernel) (by decide +kernel)).2

end Config

end JsxLint
