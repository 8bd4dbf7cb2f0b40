import JsxLint.Proofs.Containment
import JsxLint.Proofs.DerivedReports

/-! Every diagnostic of a run is well formed: it comes from a rule that is on, stands at a node of
the tree, carries the data of its rule, and its message is the template of the rule with every
placeholder filled in. The place of a derived condition comes out of the store of variables, so it
is traced back to the declarator that was entered there. -/
namespace JsxLint

namespace Template

/-- The second text is the first one with every placeholder replaced by its value. In the first,
an opening brace stands only where a placeholder begins, and every placeholder has a value. -/
inductive Fills (data : Data) : List Char → List Char → Prop
  | nil : Fills data [] []
  | text {c : Char} {rest filled : List Char} (plain : c ≠ '{') (h : Fills data rest filled) :
      Fills data (c :: rest) (c :: filled)
  | placeholder {key rest filled : List Char} {value : String} (plain : '{' ∉ key ∧ '}' ∉ key)
      (known : data.get? (String.ofList key) = some value) (h : Fills data rest filled) :
      Fills data ('{' :: '{' :: key ++ '}' :: '}' :: rest) (value.toList ++ filled)

/-- The piece is text other than an opening brace, or a placeholder for one of the keys with
nothing around the key. -/
def Piece.isRegular (keys : List String) : Piece → Bool
  | text c => c ≠ '{'
  | placeholder key =>
    keys.contains (String.ofList key) && Text.trim key = key &&
      (!key.contains '{' && !key.contains '}')

lemma exists_get?_of_mem_keys {data : Data} {key : String} (h : key ∈ data.map Prod.fst) :
    ∃ value, data.get? key = some value := by
  induction data with
  | nil => cases h
  | cons entry rest ih =>
    obtain ⟨k, v⟩ := entry
    by_cases hk : key = k
    · subst hk
      exact ⟨v, by simp [Data.get?]⟩
    · obtain ⟨value, hvalue⟩ := ih (by simpa [hk] using h)
      refine ⟨value, ?_⟩
      rw [Data.get?, List.lookup_cons, beq_eq_false_iff_ne.mpr hk]
      exact hvalue

/-- Regular pieces are all filled in where the data has their keys. -/
lemma fills_of_isRegular {keys : List String} {data : Data} (hdata : data.map Prod.fst = keys)
    {pieces : List Piece} (h : ∀ piece ∈ pieces, piece.isRegular keys = true) :
    Fills data (pieces.flatMap Piece.written) (pieces.flatMap (·.filled data)) := by
  induction pieces with
  | nil => exact .nil
  | cons piece pieces ih =>
    have hrest := ih fun p hp => h p (List.mem_cons_of_mem _ hp)
    have hpiece := h piece List.mem_cons_self
    rw [List.flatMap_cons, List.flatMap_cons]
    cases piece with
    | text c => exact .text (by simpa [Piece.isRegular] using hpiece) hrest
    | placeholder key =>
      simp only [Piece.isRegular, Bool.and_eq_true, decide_eq_true_eq,
        Bool.not_eq_true', List.contains_eq_mem, decide_eq_false_iff_not] at hpiece
      obtain ⟨⟨hkey, htrim⟩, hplain⟩ := hpiece
      obtain ⟨value, hvalue⟩ := exists_get?_of_mem_keys (hdata ▸ hkey)
      have hfilled : (Piece.placeholder key).filled data = value.toList := by
        rw [Piece.filled, htrim, hvalue]
      rw [hfilled]
      simpa [Piece.written] using Fills.placeholder hplain hvalue hrest

end Template

/-- The templates of the rules name only data that the diagnostics of the rule carry. -/
lemma RuleId.isRegular_of_mem_pieces (rule : RuleId) :
    ∀ piece ∈ Template.pieces rule.template, piece.isRegular rule.keys = true := by
  rw [← List.all_eq_true]
  cases rule <;> decide +kernel

lemma Diagnostic.HasForm.fills {rule : RuleId} {d : Diagnostic} (h : d.HasForm rule) :
    Template.Fills d.data d.template.toList d.message.toList := by
  have hfills := Template.fills_of_isRegular h.keys rule.isRegular_of_mem_pieces
  rw [Template.flatMap_written_pieces] at hfills
  rw [h.message, h.template, Template.render, String.toList_ofList]
  exact hfills

lemma BooleanNaming.hasSpan_of_declared? {o : Options} {site : Site} {holder : Holder}
    {ident : Ident} (h : declared? o site = some (holder, ident)) :
    site.node.HasSpan ident.span := by
  unfold declared? at h
  split at h
  · simp only [Option.bind_eq_bind, Option.bind_eq_some_iff] at h
    obtain ⟨declarator, hd, i, hi, h⟩ := h
    split at h
    · obtain ⟨-, rfl⟩ := Prod.mk.inj (Option.some.inj h)
      exact Node.hasSpan_of_declared hd hi
    · cases h
  · split at h
    · obtain ⟨i, hi, hpair⟩ := Option.map_eq_some_iff.mp h
      obtain ⟨-, rfl⟩ := Prod.mk.inj hpair
      exact Node.hasSpan_of_key? hi
    · cases h
  · split at h
    · obtain ⟨i, hi, hpair⟩ := Option.map_eq_some_iff.mp h
      obtain ⟨-, rfl⟩ := Prod.mk.inj hpair
      exact Node.hasSpan_of_key? hi
    · cases h
  · simp only [Option.bind_eq_bind, Option.bind_eq_some_iff] at h
    obtain ⟨parameter, hp, i, hi, h⟩ := h
    split at h
    · obtain ⟨-, rfl⟩ := Prod.mk.inj (Option.some.inj h)
      exact .of_contains (Node.contains_of_parameter? hp).1 (Node.hasSpan_of_boundIdent? hi)
    · cases h
  · cases h

lemma EventHandlerNaming.hasSpan_of_propHandler? {site : Site} {role : Name.HandlerRole}
    {ident : Ident} (h : propHandler? site = some (role, ident)) :
    site.node.HasSpan ident.span := by
  simp only [propHandler?, Option.bind_eq_bind, Option.bind_eq_some_iff] at h
  obtain ⟨key, hkey, h⟩ := h
  split at h
  · obtain ⟨-, rfl⟩ := Prod.mk.inj (Option.some.inj h)
    exact Node.hasSpan_of_key? hkey
  · cases h

lemma EventHandlerNaming.hasSpan_of_declared? {site : Site} {role : Name.HandlerRole}
    {ident : Ident} (h : declared? site = some (role, ident)) : site.node.HasSpan ident.span := by
  unfold declared? at h
  split at h
  · simp only [Option.bind_eq_bind, Option.bind_eq_some_iff] at h
    obtain ⟨declarator, hd, i, hi, h⟩ := h
    split at h
    · obtain ⟨-, rfl⟩ := Prod.mk.inj (Option.some.inj h)
      exact Node.hasSpan_of_declared hd hi
    · cases h
  · split at h
    · exact hasSpan_of_propHandler? h
    · cases h
  · exact hasSpan_of_propHandler? h
  · cases h

lemma PropInterfaceNaming.hasSpan_of_declared? {source : String} {site : Site}
    {component : Component} {props : PropsType} (h : declared? source site = some component)
    (hprops : component.props? = some props) : site.node.HasSpan props.span := by
  unfold declared? at h
  split at h
  · obtain ⟨declarator, hd, hcomponent⟩ := Option.bind_eq_some_iff.mp h
    exact Component.hasSpan_of_ofDeclarator? hd hcomponent hprops
  · split at h
    · exact Component.hasSpan_of_ofFunction? h hprops
    · cases h
  · cases h

/-- What a rule finds at a site stands at a node below the site. -/
theorem Config.hasSpan_of_mem_findingsOf {c : Config} {source : String} {site : Site}
    {rule : RuleId} {d : Diagnostic} (h : d ∈ c.findingsOf source site [] rule) :
    site.node.HasSpan d.span := by
  cases rule with
  | derivedConditionalNaming => cases h
  | booleanNaming =>
    cases hc : c.booleanNaming with
    | none => simp [findingsOf, hc] at h
    | some o =>
      obtain ⟨-, holder, ident, hdeclared, hspan⟩ :=
        BooleanNaming.check_sound (o := o) (by simpa [findingsOf, hc] using h)
      exact hspan ▸ BooleanNaming.hasSpan_of_declared? hdeclared
  | noInlineStyles =>
    cases hc : c.noInlineStyles with
    | none => simp [findingsOf, hc] at h
    | some o =>
      obtain ⟨-, attr, hattr, hspan⟩ :=
        NoInlineStyles.check_sound (o := o) (by simpa [findingsOf, hc] using h)
      exact hspan ▸ (Node.contains_of_mem (Node.mem_children_of_mem_attributeItems hattr)).hasSpan
  | eventHandlerNaming =>
    obtain ⟨-, role, ident, hdeclared, hspan⟩ :=
      EventHandlerNaming.check_sound (List.mem_ite_nil_right.mp h).2
    exact hspan ▸ EventHandlerNaming.hasSpan_of_declared? hdeclared
  | jsxStringBraces =>
    obtain ⟨-, attr, hattr, value, hvalue, hspan⟩ :=
      JsxStringBraces.check_sound (List.mem_ite_nil_right.mp h).2
    have hcontains := Node.contains_of_mem (Node.mem_children_of_attributeValue? hvalue)
    exact hspan ▸ .of_mem (Node.mem_children_of_mem_attributeItems hattr) hcontains.hasSpan
  | noComplexJsxConditions =>
    obtain ⟨-, hspan⟩ := NoComplexJsxConditions.check_sound (List.mem_ite_nil_right.mp h).2
    exact hspan ▸ (Node.Contains.self _).hasSpan
  | propInterfaceNaming =>
    obtain ⟨-, component, props, hdeclared, hprops, hspan⟩ :=
      PropInterfaceNaming.check_sound (List.mem_ite_nil_right.mp h).2
    exact hspan ▸ PropInterfaceNaming.hasSpan_of_declared? hdeclared hprops

/-- A reported condition stands at the identifier of its declarator. -/
lemma DerivedConditionalNaming.hasSpan_of_mem_run {sites : List Site} {d : Diagnostic}
    (h : d ∈ run sites) : ∃ site ∈ sites, site.node.HasSpan d.span := by
  obtain ⟨site, hsite, -, -, ident, hident, rfl, -⟩ := exists_condition_and_gate h
  obtain ⟨declarator, -, hd, hname, -⟩ := Site.condition?_eq_some_iff.mp hident
  exact ⟨site, hsite, Node.hasSpan_of_declared hd hname⟩

lemma Config.hasSpan_of_mem_ofRule {c : Config} {rule : RuleId} {source : String} {root : Node}
    {d : Diagnostic} (h : d ∈ (c.lint source root).ofRule rule.name) :
    ∃ site ∈ root.sites, site.node.HasSpan d.span := by
  rw [ofRule_lint_eq] at h
  by_cases hrule : rule = .derivedConditionalNaming
  · subst hrule
    exact DerivedConditionalNaming.hasSpan_of_mem_run (List.mem_ite_nil_right.mp h).2
  · rw [findingsOver_of_ne hrule] at h
    obtain ⟨site, hsite, hd⟩ := List.mem_flatMap.mp h
    exact ⟨site, hsite, hasSpan_of_mem_findingsOf hd⟩

/-- A diagnostic as a run over `root` may report it: a warning of a rule that is on, at a node of
the tree, with the data, message and fix of that rule. -/
structure Diagnostic.WellFormed (c : Config) (root : Node) (d : Diagnostic) : Prop where
  enabled : d.rule ∈ c.enabledRules
  severity : d.severity = .warning
  place : ∃ site ∈ root.sites, site.node.span = d.span
  data : ∃ rule : RuleId, d.rule = rule.name ∧ d.template = rule.template ∧
    d.data.map Prod.fst = rule.keys
  message : Template.Fills d.data d.template.toList d.message.toList
  fixes : d.fixes = [] ∨
    d.rule = RuleId.jsxStringBraces.name ∧ ∃ fix, d.fixes = [fix] ∧ fix.span = d.span

/-- Every diagnostic of a run is well formed. -/
theorem Config.wellFormed_of_mem_lint (c : Config) (source : String) (root : Node)
    {d : Diagnostic} (h : d ∈ (c.lint source root).diagnostics) : d.WellFormed c root := by
  obtain ⟨rule, hon, hform⟩ := exists_rule_of_mem_visitAll h
  have hrule : d ∈ (c.lint source root).ofRule rule.name :=
    List.mem_filter.mpr ⟨h, decide_eq_true hform.name⟩
  obtain ⟨site, hsite, m, hcontains, hspan⟩ := hasSpan_of_mem_ofRule hrule
  obtain ⟨place, hplace, rfl⟩ := exists_site_of_contains hsite hcontains
  have henabled : rule ∈ RuleId.all.filter c.enables :=
    List.mem_filter.mpr ⟨rule.mem_all, hon⟩
  refine ⟨?_, hform.severity, ⟨place, hplace, hspan⟩,
    ⟨rule, hform.name, hform.template, hform.keys⟩, hform.fills, ?_⟩
  · rw [hform.name]
    exact List.mem_map_of_mem henabled
  · rcases hform.fixes with hnone | ⟨rfl, hone⟩
    · exact Or.inl hnone
    · exact Or.inr ⟨hform.name, hone⟩

/-- Written `<a href="x" />`. -/
def bareStringAttribute : Node :=
  .mk .program ⟨0, 14⟩ [
    .mk .element ⟨0, 14⟩ [
      .mk .opening ⟨0, 14⟩ [
        .mk (.jsxWord "a") ⟨1, 2⟩ [],
        .mk (.jsxAttribute none) ⟨3, 11⟩ [
          .mk (.jsxWord "href") ⟨3, 7⟩ [], .mk (.stringLiteral "x") ⟨8, 11⟩ []]]]]

theorem wellFormed_of_mem_lint_bareStringAttribute :
    ∃ d, (Config.allOn.lint "<a href=\"x\" />" bareStringAttribute).diagnostics = [d] ∧
      d.message = "Wrap the string value \"x\" of `href` in braces." ∧ d.fixes.length = 1 ∧
      d.WellFormed Config.allOn bareStringAttribute := by
  have hfound : (Config.allOn.lint "<a href=\"x\" />" bareStringAttribute).diagnostics =
      [Diagnostic.warning RuleId.jsxStringBraces.name ⟨8, 11⟩ JsxStringBraces.template
        |>.withData "attribute" "href"
        |>.withData "value" "x"
        |>.withFix (JsxStringBraces.fix ⟨8, 11⟩ "\"x\"")] := by
    decide +kernel
  refine ⟨_, hfound, by decide +kernel, rfl, ?_⟩
  exact Config.wellFormed_of_mem_lint Config.allOn _ bareStringAttribute
    (hfound ▸ List.mem_singleton_self _)

end JsxLint
