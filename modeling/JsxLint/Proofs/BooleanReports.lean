import JsxLint.Proofs.BooleanNames
import JsxLint.Proofs.Rewrapping
import JsxLint.Proofs.RuleFindings

/-! What `boolean-naming` reports on variables and properties. A ternary is judged by the branches
at the ends of nested ternaries, where a string fallback counts as boolean although it does not
count by itself. A property is passed over in every part of a selector call, also in what the call
is made on and not only in its arguments. -/
namespace JsxLint

namespace BooleanNaming

lemma exists_report? {o : Options} (holder : Holder) {ident : Ident}
    (h : Name.isCompliant o.openers ident.name = false) :
    ∃ d, report? o holder ident = some d ∧ d.span = ident.span ∧
      d.data.get? "name" = some ident.name := by
  obtain ⟨d, hd⟩ : ∃ d, report? o holder ident = some d := by
    rw [← Option.ne_none_iff_exists']
    intro hnone
    rw [report?_eq_none_iff.mp hnone] at h
    cases h
  obtain ⟨proposal, -, rfl⟩ := Option.map_eq_some_iff.mp hd
  exact ⟨_, hd, rfl, rfl⟩

lemma check_declarator (o : Options) {site : Site} {d : Declarator} {ident : Ident}
    (hd : site.node.declarator? = some d) (hident : d.ident? = some ident) :
    check o site =
      if d.type?.any Node.isBooleanType || d.init?.any Node.isBooleanValue then
        (report? o .var ident).toList
      else [] := by
  simp only [check, declared?, (Node.declarator?_eq_some hd).1, hd, hident, Option.bind_eq_bind,
    Option.bind_some]
  split <;> rfl

lemma check_property (o : Options) {site : Site} {value : Node} {ident : Ident}
    (hkind : site.node.kind = .property .value false false)
    (hvalue : site.node.children[1]? = some value) (hkey : site.node.key? = some ident) :
    check o site =
      if value.isBooleanValue && !site.around.insideCallNamed o.schemaMethods &&
          !site.around.insideConstruct then
        (report? o .property ident).toList
      else [] := by
  simp only [check, declared?, hkind, hvalue, hkey, Option.any_some, Option.map_some]
  split <;> rfl

/-- What the rule finds in a run is what it finds at the sites, one after the other. -/
lemma ofRule_lint {c : Config} {o : Options} (hon : c.booleanNaming = some o) (source : String)
    (root : Node) :
    (c.lint source root).ofRule RuleId.booleanNaming.name = root.sites.flatMap (check o) := by
  rw [Config.ofRule_lint_eq, Config.findingsOver_of_ne (by decide)]
  simp only [Config.findingsOf, hon, Option.elim_some]

end BooleanNaming

namespace Node

/-- What an expression hands back at the ends of nested ternaries, without the wrappers around the
branches. An expression other than a ternary hands back itself. -/
def branches : Node → List Node
  | mk (.wrapper _) _ (e :: _) => e.branches
  | mk .typeAssertion _ (_ :: e :: _) => e.branches
  | mk .conditional _ [_, consequent, alternate] => consequent.branches ++ alternate.branches
  | e => [e]

/-- An expression is boolean if one of its branches is. -/
lemma isBoolean_eq_any_branches (e : Node) : e.isBoolean = e.branches.any isBoolean := by
  fun_induction branches e with
  | case1 form s e rest ih => rw [isBoolean, ih]
  | case2 s type e rest ih => rw [isBoolean, ih]
  | case3 s test consequent alternate ihconsequent ihalternate =>
    rw [isBoolean, ihconsequent, ihalternate, List.any_append]
  | case4 e => simp

lemma isBoolean_of_isStringFallback {e : Node} (h : e.isStringFallback = true) :
    e.isBoolean = true := by
  unfold isStringFallback at h
  split at h
  · rename_i s left right hor
    rw [← isBoolean_peel, hor]
    rfl
  · cases h

/-- A boolean is one that its name should show, or a string fallback. -/
lemma isBoolean_iff {e : Node} :
    e.isBoolean = true ↔ e.isBooleanValue = true ∨ e.isStringFallback = true := by
  constructor
  · intro h
    cases hfallback : e.isStringFallback with
    | true => exact Or.inr rfl
    | false => exact Or.inl (by rw [isBooleanValue, h, hfallback]; rfl)
  · rintro (hvalue | hfallback)
    · exact (Bool.and_eq_true_iff.mp hvalue).1
    · exact isBoolean_of_isStringFallback hfallback

section Ternary
variable {e test x y : Node} {s : Span}

lemma isBooleanValue_of_ternary (he : e.peel = mk .conditional s [test, x, y]) :
    e.isBooleanValue = e.isBoolean := by
  have hfallback : e.isStringFallback = false := by rw [isStringFallback, he]
  rw [isBooleanValue, hfallback, Bool.not_false, Bool.and_true]

lemma isBoolean_of_ternary (he : e.peel = mk .conditional s [test, x, y]) :
    e.isBoolean = (x.isBoolean || y.isBoolean) := by
  rw [← isBoolean_peel, he, isBoolean]

end Ternary

end Node

namespace BooleanNaming

/-- The expression is the first value of what the site names: of a variable that is not declared
boolean, or of a plain property outside of selector calls and constructors. -/
inductive Initializes (o : Options) (site : Site) (ident : Ident) (e : Node) : Prop
  | var {d : Declarator} (declarator : site.node.declarator? = some d)
      (name : d.ident? = some ident) (untyped : d.type?.any Node.isBooleanType = false)
      (value : d.init? = some e)
  | property (plain : site.node.kind = .property .value false false)
      (name : site.node.key? = some ident) (value : site.node.children[1]? = some e)
      (unselected : site.around.insideCallNamed o.schemaMethods = false)
      (unbuilt : site.around.insideConstruct = false)

lemma Initializes.check_eq_nil_iff {o : Options} {site : Site} {ident : Ident} {e : Node}
    (h : Initializes o site ident e) :
    check o site = [] ↔
      Name.isCompliant o.openers ident.name = true ∨ e.isBooleanValue = false := by
  have hcheck : ∃ holder, check o site =
      if e.isBooleanValue then (report? o holder ident).toList else [] := by
    cases h with
    | var hd hident huntyped hvalue =>
      exact ⟨.var, by simp [check_declarator o hd hident, huntyped, hvalue]⟩
    | property hplain hkey hvalue hunselected hunbuilt =>
      exact ⟨.property, by simp [check_property o hplain hvalue hkey, hunselected, hunbuilt]⟩
  obtain ⟨holder, hcheck⟩ := hcheck
  rw [hcheck]
  cases e.isBooleanValue with
  | true => simp [report?_eq_none_iff]
  | false => simp

/-- A ternary counts as boolean if a branch does or is a string fallback. So it is reported also
where no branch counts but one is a string fallback. -/
theorem ternary_counts_string_fallbacks {e test x y : Node} {s : Span}
    (he : e.peel = .mk .conditional s [test, x, y]) :
    ((e.isBooleanValue = true ↔ x.isBooleanValue = true ∨ y.isBooleanValue = true) ↔
      (x.isStringFallback = true ∨ y.isStringFallback = true →
        x.isBooleanValue = true ∨ y.isBooleanValue = true)) ∧
    (e.isBooleanValue = true ↔
      ∃ b ∈ e.branches, b.isBooleanValue = true ∨ b.isStringFallback = true) ∧
    ∀ o site ident, Initializes o site ident e →
      (∀ b ∈ e.branches, b.isBooleanValue = false) →
      (check o site = [] ↔ Name.isCompliant o.openers ident.name = true ∨
        ∀ b ∈ e.branches, b.isStringFallback = false) := by
  have hbranches : e.isBooleanValue = true ↔
      ∃ b ∈ e.branches, b.isBooleanValue = true ∨ b.isStringFallback = true := by
    rw [Node.isBooleanValue_of_ternary he, Node.isBoolean_eq_any_branches, List.any_eq_true]
    simp only [Node.isBoolean_iff]
  refine ⟨?_, hbranches, fun o site ident hinit hnone => ?_⟩
  · rw [Node.isBooleanValue_of_ternary he, Node.isBoolean_of_ternary he, Bool.or_eq_true,
      Node.isBoolean_iff, Node.isBoolean_iff]
    tauto
  · have hvalue : e.isBooleanValue = false ↔ ∀ b ∈ e.branches, b.isStringFallback = false := by
      rw [← Bool.not_eq_true, hbranches]
      constructor
      · intro h b hb
        exact Bool.eq_false_iff.mpr fun hfallback => h ⟨b, hb, Or.inr hfallback⟩
      · rintro h ⟨b, hb, hcounts | hfallback⟩
        · rw [hnone b hb] at hcounts
          cases hcounts
        · rw [h b hb] at hfallback
          cases hfallback
    rw [hinit.check_eq_nil_iff, hvalue]

/-- Written `const title = ok ? name || 'Anonymous' : 'Guest'`, which is reported. -/
theorem ternary_counts_string_fallbacks_title :
    let fallback := Node.mk (.logical .or) ⟨19, 38⟩
      [.mk (.identifier "name") ⟨19, 23⟩ [], .mk (.stringLiteral "Anonymous") ⟨27, 38⟩ []]
    let guest := Node.mk (.stringLiteral "Guest") ⟨41, 48⟩ []
    let ternary := Node.mk .conditional ⟨14, 48⟩
      [.mk (.identifier "ok") ⟨14, 16⟩ [], fallback, guest]
    let site : Site := ⟨.mk .declarator ⟨6, 48⟩ [.mk (.binding "title") ⟨6, 11⟩ [], ternary], []⟩
    Initializes {} site ⟨"title", ⟨6, 11⟩⟩ ternary ∧
      (∀ b ∈ ternary.branches, b.isBooleanValue = false) ∧ ternary.isBooleanValue = true ∧
      ¬ (ternary.isBooleanValue = true ↔
        fallback.isBooleanValue = true ∨ guest.isBooleanValue = true) ∧
      check {} site ≠ [] := by
  intro fallback guest ternary site
  have hinit : Initializes {} site ⟨"title", ⟨6, 11⟩⟩ ternary := .var rfl rfl rfl rfl
  have hnone : ∀ b ∈ ternary.branches, b.isBooleanValue = false := by decide
  obtain ⟨hdistributes, hbranches, hreport⟩ :=
    ternary_counts_string_fallbacks (e := ternary) (by rfl)
  have hvalue : ternary.isBooleanValue = true :=
    hbranches.mpr ⟨fallback, by simp [ternary, fallback, Node.branches], by decide⟩
  refine ⟨hinit, hnone, hvalue, ?_, ?_⟩
  · rw [hdistributes]
    decide
  · rw [Ne, hreport {} site _ hinit hnone]
    decide

end BooleanNaming

def Node.isCallNamed (names : List String) : Node → Bool
  | mk .call _ (callee :: _) => callee.memberName?.any names.contains
  | _ => false

lemma Surroundings.insideCallNamed_iff {names : List String} {around : Surroundings} :
    around.insideCallNamed names = true ↔ ∃ call ∈ around, call.isCallNamed names = true :=
  List.any_eq_true

lemma Surroundings.insideConstruct_eq_false {around : Surroundings}
    (h : ∀ n ∈ around, n.kind ≠ .construct) : around.insideConstruct = false := by
  refine List.any_eq_false.mpr fun n hn hnew => ?_
  split at hnew
  · exact h _ hn rfl
  · cases hnew

/-- The parts of a method call are its arguments, what it is made on and its type arguments. -/
lemma Node.mem_parts_of_isCallNamed {names : List String} {call part : Node}
    (h : call.isCallNamed names = true) (hpart : part ∈ call.children) :
    part ∈ call.arguments ∨ call.children.head? = some part ∨ part.isTypeArguments = true := by
  unfold Node.isCallNamed at h
  split at h
  · rename_i s callee rest
    rcases List.mem_cons.mp hpart with rfl | hrest
    · exact Or.inr (Or.inl rfl)
    · cases htypes : part.isTypeArguments with
      | true => exact Or.inr (Or.inr rfl)
      | false => exact Or.inl (List.mem_filter.mpr ⟨hrest, by rw [htypes]; rfl⟩)
  · cases h

namespace Site

/-- The site lies in `part`, which is a part of the node `whole` of the tree. -/
def LiesIn (root whole part : Node) (site : Site) : Prop :=
  ∃ outer, ⟨whole, outer⟩ ∈ root.sites ∧ part ∈ whole.children ∧
    site ∈ part.sitesBelow (whole :: outer)

/-- What is around a site are the nodes of the tree that it lies in a part of. -/
lemma mem_around_iff {root n : Node} {site : Site} (hsite : site ∈ root.sites) :
    n ∈ site.around ↔ ∃ part, site.LiesIn root n part := by
  constructor
  · intro hn
    obtain ⟨path, outer, hpath⟩ := List.append_of_mem hn
    obtain ⟨before, after, hsplit⟩ := List.append_of_mem hsite
    obtain ⟨front, below, rest, hbefore, hbelow⟩ :=
      root.sitesBelow_ancestor [] hsplit hpath (Nat.zero_le _)
    have hwhole : (⟨n, outer⟩ : Site) ∈ root.sites := by
      rw [hsplit, hbefore]
      simp
    have hinside : site ∈ sitesBelowAll (n :: outer) n.children := by
      rw [hbelow]
      simp
    obtain ⟨part, hpart, hmem⟩ := mem_sitesBelowAll_iff.mp hinside
    exact ⟨part, outer, hwhole, hpart, hmem⟩
  · rintro ⟨part, outer, -, -, hmem⟩
    rcases part.around_of_mem_sitesBelow (n :: outer) hmem with rfl | ⟨inner, hinner⟩
    · exact List.mem_cons_self
    · rw [hinner]
      simp

structure IsBooleanProperty (site : Site) (ident : Ident) : Prop where
  plain : site.node.kind = .property .value false false
  value : ∃ value, site.node.children[1]? = some value ∧ value.isBooleanValue = true
  name : site.node.key? = some ident

end Site

namespace BooleanNaming

/-- A boolean property with a name that does not comply is passed over exactly if it lies in a call
of a selector method, be it in an argument or in what the call is made on. -/
theorem property_passed_over_iff_in_selector {c : Config} {o : Options}
    (hon : c.booleanNaming = some o) (source : String) {root : Node} {before after : List Site}
    {site : Site} {ident : Ident} (hsites : root.sites = before ++ site :: after)
    (hproperty : site.IsBooleanProperty ident)
    (hname : Name.isCompliant o.openers ident.name = false)
    (hnew : ∀ n ∈ site.around, n.kind ≠ .construct) :
    ∃ found, (c.lint source root).ofRule RuleId.booleanNaming.name =
        before.flatMap (check o) ++ found ++ after.flatMap (check o) ∧
      (found = [] ∨
        ∃ d, found = [d] ∧ d.span = ident.span ∧ d.data.get? "name" = some ident.name) ∧
      (found = [] ↔ ∃ call part, call.isCallNamed o.schemaMethods = true ∧
        site.LiesIn root call part ∧ (part ∈ call.arguments ∨
          call.children.head? = some part ∨ part.isTypeArguments = true)) := by
  have hsite : site ∈ root.sites := by
    rw [hsites]
    simp
  obtain ⟨value, hvalue, hboolean⟩ := hproperty.value
  obtain ⟨d, hd, hspan, hdata⟩ := exists_report? .property hname
  have hfound : check o site =
      if site.around.insideCallNamed o.schemaMethods then [] else [d] := by
    rw [check_property o hproperty.plain hvalue hproperty.name, hboolean, hd,
      Surroundings.insideConstruct_eq_false hnew]
    cases site.around.insideCallNamed o.schemaMethods <;> rfl
  have hselector : site.around.insideCallNamed o.schemaMethods = true ↔
      ∃ call part, call.isCallNamed o.schemaMethods = true ∧ site.LiesIn root call part ∧
        (part ∈ call.arguments ∨ call.children.head? = some part ∨
          part.isTypeArguments = true) := by
    rw [Surroundings.insideCallNamed_iff]
    constructor
    · rintro ⟨call, hcall, hnamed⟩
      obtain ⟨part, outer, hwhole, hpart, hmem⟩ := (Site.mem_around_iff hsite).mp hcall
      exact ⟨call, part, hnamed, ⟨outer, hwhole, hpart, hmem⟩,
        Node.mem_parts_of_isCallNamed hnamed hpart⟩
    · rintro ⟨call, part, hnamed, hlies, -⟩
      exact ⟨call, (Site.mem_around_iff hsite).mpr ⟨part, hlies⟩, hnamed⟩
  refine ⟨check o site, ?_, ?_, ?_⟩
  · rw [ofRule_lint hon, hsites]
    simp
  · rw [hfound]
    split
    · exact Or.inl rfl
    · exact Or.inr ⟨d, rfl, hspan, hdata⟩
  · rw [hfound, ← hselector]
    cases site.around.insideCallNamed o.schemaMethods <;> simp

/-- Written `make({ open: true }).pick(ids)`, where nothing is reported. -/
theorem property_passed_over_iff_in_selector_callee :
    let property := Node.mk (.property .value false false) ⟨7, 17⟩
      [.mk (.word "open") ⟨7, 11⟩ [], .mk .booleanLiteral ⟨13, 17⟩ []]
    let object := Node.mk (.other "ObjectExpression") ⟨5, 19⟩ [property]
    let make := Node.mk .call ⟨0, 20⟩ [.mk (.identifier "make") ⟨0, 4⟩ [], object]
    let callee := Node.mk (.member .named) ⟨0, 25⟩ [make, .mk (.word "pick") ⟨21, 25⟩ []]
    let call := Node.mk .call ⟨0, 30⟩ [callee, .mk (.identifier "ids") ⟨26, 29⟩ []]
    let root := Node.mk .program ⟨0, 30⟩ [call]
    let site : Site := ⟨property, [object, make, callee, call, root]⟩
    let c := { Config.allOff with booleanNaming := some {} }
    site.IsBooleanProperty ⟨"open", ⟨7, 11⟩⟩ ∧
      Name.isCompliant ({} : Options).openers "open" = false ∧
      (∀ n ∈ site.around, n.kind ≠ .construct) ∧
      call.isCallNamed ({} : Options).schemaMethods = true ∧ site.LiesIn root call callee ∧
      (c.lint "make({ open: true }).pick(ids)" root).ofRule RuleId.booleanNaming.name = [] := by
  intro property object make callee call root site c
  have hsites : root.sites =
      [⟨root, []⟩, ⟨call, [root]⟩, ⟨callee, [call, root]⟩, ⟨make, [callee, call, root]⟩,
        ⟨.mk (.identifier "make") ⟨0, 4⟩ [], [make, callee, call, root]⟩,
        ⟨object, [make, callee, call, root]⟩] ++ site ::
      [⟨.mk (.word "open") ⟨7, 11⟩ [], property :: site.around⟩,
        ⟨.mk .booleanLiteral ⟨13, 17⟩ [], property :: site.around⟩,
        ⟨.mk (.word "pick") ⟨21, 25⟩ [], [callee, call, root]⟩,
        ⟨.mk (.identifier "ids") ⟨26, 29⟩ [], [call, root]⟩] := rfl
  have hproperty : site.IsBooleanProperty ⟨"open", ⟨7, 11⟩⟩ := ⟨rfl, ⟨_, rfl, rfl⟩, rfl⟩
  have hname : Name.isCompliant ({} : Options).openers "open" = false := by decide
  have hnew : ∀ n ∈ site.around, n.kind ≠ .construct := by decide
  have hcall : call.isCallNamed ({} : Options).schemaMethods = true := by decide
  have hlies : site.LiesIn root call callee := by
    refine ⟨[root], by rw [hsites]; simp, by simp [call], ?_⟩
    simp [site, property, object, make, callee, Node.sitesBelow, sitesBelowAll]
  obtain ⟨found, hrun, -, hsilent⟩ := property_passed_over_iff_in_selector (c := c) (o := {}) rfl
    "make({ open: true }).pick(ids)" hsites hproperty hname hnew
  obtain rfl := hsilent.mpr ⟨call, callee, hcall, hlies, Or.inr (Or.inl rfl)⟩
  exact ⟨hproperty, hname, hnew, hcall, hlies, hrun⟩

end BooleanNaming

end JsxLint
