import JsxLint.Proofs.DerivedReports

/-! Gates that come before the variable they should resolve to. A gate whose name has a variable
further out is resolved at once, against the declarations before it, so a variable that its own
function declares later does not hide the outer one. The result below says exactly when that leads
to a report. A parameter of `catch` counts among the variables of the function around it. -/
namespace JsxLint.DerivedConditionalNaming
open DerivedStore

def binds (sites : List Site) (name : String) (scope : Span) : Bool :=
  sites.any fun b => b.introduced?.any (·.name = name) && b.around.scope = scope

/-- The innermost scope around a gate that has the name, wherever it is declared there. -/
def nearestScope? (sites : List Site) (name : String) (g : Site) : Option Span :=
  g.around.scopes.find? (binds sites name)

lemma binds_iff {sites : List Site} {name : String} {scope : Span} :
    binds sites name scope = true ↔
      ∃ b ∈ sites, ∃ span, b.introduced? = some ⟨name, span⟩ ∧ b.around.scope = scope := by
  simp only [binds, List.any_eq_true, Bool.and_eq_true, Option.any_eq_true, decide_eq_true_eq]
  constructor
  · rintro ⟨b, hb, ⟨ident, hident, rfl⟩, hscope⟩
    exact ⟨b, hb, ident.span, hident, hscope⟩
  · rintro ⟨b, hb, span, hident, hscope⟩
    exact ⟨b, hb, ⟨_, hident, rfl⟩, hscope⟩

lemma nearestScope?_eq_some_iff {sites : List Site} {name : String} {g : Site} {f : Span} :
    nearestScope? sites name g = some f ↔
      ∃ inner outer, g.around.scopes = inner ++ f :: outer ∧
        (∀ s ∈ inner, binds sites name s = false) ∧ binds sites name f = true := by
  rw [nearestScope?, List.find?_eq_some_iff_append]
  constructor
  · rintro ⟨hf, inner, outer, hscopes, hinner⟩
    exact ⟨inner, outer, hscopes, fun s hs => by simpa using hinner s hs, hf⟩
  · rintro ⟨inner, outer, hscopes, hinner, hf⟩
    exact ⟨hf, inner, outer, hscopes, fun s hs => by simp [hinner s hs]⟩

lemma written_of_binds {sites : List Site} {name : String} {scope : Span}
    (h : binds sites name scope = true) : Written (writes sites) name scope := by
  obtain ⟨b, hb, span, hident, hscope⟩ := binds_iff.mp h
  exact written_writes_iff.mpr ⟨b, hb, span, Or.inr hident, hscope⟩

/-- Over a whole tree the walk enters only variables that the scopes have. -/
lemma binds_of_written {root : Node} {name : String} {scope : Span}
    (h : Written (writes root.sites) name scope) : binds root.sites name scope = true := by
  rw [binds_iff]
  obtain ⟨x, hx, span, hident | hident, rfl⟩ := written_writes_iff.mp h
  · obtain ⟨b, hb, hintro, hscope⟩ :=
      exists_introduced_of_mem hx (Site.declared?_of_condition? hident)
    exact ⟨b, hb, span, hintro, hscope⟩
  · exact ⟨x, hx, span, hident, rfl⟩

lemma written_mono {part sites : List Site} (hpart : part ⊆ sites) {name : String} {scope : Span}
    (h : Written (writes part) name scope) : Written (writes sites) name scope := by
  obtain ⟨x, hx, hident⟩ := written_writes_iff.mp h
  exact written_writes_iff.mpr ⟨x, hpart hx, hident⟩

def Unconditional (sites : List Site) (name : String) (scope : Span) : Prop :=
  ∀ d ∈ sites, ∀ ident ∈ d.condition?, ident.name = name → d.around.scope ≠ scope

instance (sites : List Site) (name : String) (scope : Span) :
    Decidable (Unconditional sites name scope) :=
  inferInstanceAs (Decidable (∀ d ∈ sites, ∀ ident ∈ d.condition?, ident.name = name →
    d.around.scope ≠ scope))

/-- Where the nearest scope with the name has no condition, a gate finds one only if that scope is
still unwritten and one further out holds it. -/
lemma reads_beyond {sites part : List Site} {name : String} {inner outer : List Span}
    {f span : Span} (hpart : part ⊆ sites) (hidle : Unconditional sites name f)
    (hinner : ∀ s ∈ inner, ¬ Written (writes part) name s) :
    Reads (writes part) name (inner ++ f :: outer) span ↔
      ¬ Written (writes part) name f ∧ Reads (writes part) name outer span := by
  rw [reads_append_iff hinner]
  constructor
  · rintro ⟨scope, hfirst, hholds⟩
    rcases firstWith_cons hfirst with ⟨rfl, -⟩ | ⟨hunwritten, hrest⟩
    · obtain ⟨d, hd, hident, hscope⟩ := mem_writes_record_iff.mp (record_mem_of_holds hholds)
      exact absurd hscope (hidle d (hpart hd) _ hident rfl)
    · exact ⟨hunwritten, scope, hrest, hholds⟩
  · rintro ⟨hunwritten, scope, hfirst, hholds⟩
    exact ⟨scope, firstWith_tail hunwritten hfirst, hholds⟩

lemma binds_of_written_of_unconditional {sites part : List Site} {name : String} {f : Span}
    (hpart : part ⊆ sites) (hidle : Unconditional sites name f)
    (h : Written (writes part) name f) : binds part name f = true := by
  obtain ⟨x, hx, span, hident | hident, hscope⟩ := written_writes_iff.mp h
  · exact absurd hscope (hidle x (hpart hx) _ hident rfl)
  · exact binds_iff.mpr ⟨x, hx, span, hident, hscope⟩

lemma report_injective {name name' : String} {span span' : Span}
    (h : report name span = report name' span') : name = name' ∧ span = span' := by
  constructor
  · have hdata := congrArg (fun r => r.data.get? "name") h
    simp only [report_name] at hdata
    exact Option.some.inj hdata
  · exact congrArg Diagnostic.span h

/-- Where the nearest scope of every gate has no condition of the name, a report comes from a gate
before all variables of that scope, and it is of a condition further out. -/
theorem early_gate_report_iff (c : Config) (hon : c.derivedConditionalNaming = true)
    (source : String) (root : Node) (name : String)
    (hhidden : ∀ g ∈ root.sites, g.Reads name →
      ∃ f, nearestScope? root.sites name g = some f ∧ Unconditional root.sites name f)
    (span : Span) :
    report name span ∈ (c.lint source root).ofRule RuleId.derivedConditionalNaming.name ↔
      ∃ before g later inner f outer, root.sites = before ++ g :: later ∧ g.Reads name ∧
        g.around.scopes = inner ++ f :: outer ∧ (∀ s ∈ inner, binds root.sites name s = false) ∧
        binds root.sites name f = true ∧ binds before name f = false ∧
        Reads (writes before) name outer span := by
  have hunwritten : ∀ {part : List Site} {inner : List Span}, part ⊆ root.sites →
      (∀ s ∈ inner, binds root.sites name s = false) →
      ∀ s ∈ inner, ¬ Written (writes part) name s := by
    intro part inner hpart hinner s hs hwritten
    have hbinds := binds_of_written (written_mono hpart hwritten)
    rw [hinner s hs] at hbinds
    cases hbinds
  rw [ofRule_lint c hon, mem_run_iff]
  constructor
  · rintro ⟨before, g, later, hsplit, name', span', hreport, hreads, hfinds⟩
    obtain ⟨rfl, rfl⟩ := report_injective hreport
    obtain ⟨f, hnearest, hidle⟩ := hhidden g (by rw [hsplit]; simp) hreads
    obtain ⟨inner, outer, hscopes, hinner, hf⟩ := nearestScope?_eq_some_iff.mp hnearest
    have hbefore : before ⊆ root.sites := by rw [hsplit]; exact List.subset_append_left _ _
    rw [hscopes] at hfinds
    rcases hfinds with hfinds | ⟨-, hfinds⟩
    · obtain ⟨hnot, houter⟩ := (reads_beyond hbefore hidle (hunwritten hbefore hinner)).mp hfinds
      have hlater : binds before name f = false := by
        cases hb : binds before name f with
        | false => rfl
        | true => exact absurd (written_of_binds hb) hnot
      exact ⟨before, g, later, inner, f, outer, hsplit, hreads, hscopes, hinner, hf, hlater, houter⟩
    · have hall := List.Subset.refl root.sites
      have hread := (reads_beyond hall hidle (hunwritten hall hinner)).mp hfinds
      exact absurd (written_of_binds hf) hread.1
  · rintro ⟨before, g, later, inner, f, outer, hsplit, hreads, hscopes, hinner, hf, hlater, houter⟩
    refine ⟨before, g, later, hsplit, name, span, rfl, hreads, Or.inl ?_⟩
    obtain ⟨f', hnearest, hidle⟩ := hhidden g (by rw [hsplit]; simp) hreads
    have hsame : nearestScope? root.sites name g = some f :=
      nearestScope?_eq_some_iff.mpr ⟨inner, outer, hscopes, hinner, hf⟩
    obtain rfl := Option.some.inj (hnearest.symm.trans hsame)
    have hbefore : before ⊆ root.sites := by rw [hsplit]; exact List.subset_append_left _ _
    rw [hscopes, reads_beyond hbefore hidle (hunwritten hbefore hinner)]
    refine ⟨fun hwritten => ?_, houter⟩
    rw [binds_of_written_of_unconditional hbefore hidle hwritten] at hlater
    cases hlater

/-- Written `const isReady = a > 1`, and then, in a function,
`const render = () => isReady && <X />` before `const isReady = props.ready`. -/
def gateBeforeShadow : Node :=
  .mk .program ⟨0, 115⟩ [
    .mk (.other "VariableDeclaration") ⟨0, 22⟩ [
      .mk .declarator ⟨6, 21⟩ [
        .mk (.binding "isReady") ⟨6, 13⟩ [],
        .mk (.binary .greater) ⟨16, 21⟩ [
          .mk (.identifier "a") ⟨16, 17⟩ [], .mk (.other "NumericLiteral") ⟨20, 21⟩ []]]],
    .mk (.function .declaration) ⟨23, 115⟩ [
      .mk (.binding "Panel") ⟨32, 37⟩ [],
      .mk .parameters ⟨37, 39⟩ [],
      .mk .functionBody ⟨40, 115⟩ [
        .mk (.other "VariableDeclaration") ⟨44, 82⟩ [
          .mk .declarator ⟨50, 81⟩ [
            .mk (.binding "render") ⟨50, 56⟩ [],
            .mk .arrow ⟨59, 81⟩ [
              .mk .parameters ⟨59, 61⟩ [],
              .mk .functionBody ⟨65, 81⟩ [
                .mk (.other "ExpressionStatement") ⟨65, 81⟩ [
                  .mk (.logical .and) ⟨65, 81⟩ [
                    .mk (.identifier "isReady") ⟨65, 72⟩ [],
                    .mk .element ⟨76, 81⟩ [
                      .mk .opening ⟨76, 81⟩ [.mk (.identifier "X") ⟨77, 78⟩ []]]]]]]]],
        .mk (.other "VariableDeclaration") ⟨85, 113⟩ [
          .mk .declarator ⟨91, 112⟩ [
            .mk (.binding "isReady") ⟨91, 98⟩ [],
            .mk (.member .named) ⟨101, 112⟩ [
              .mk (.identifier "props") ⟨101, 106⟩ [], .mk (.word "ready") ⟨107, 112⟩ []]]]]]]

/-- The function has a plain variable of the name and no condition, and yet the outer condition is
reported. -/
theorem early_gate_report_gateBeforeShadow :
    (∀ g ∈ gateBeforeShadow.sites, g.Reads "isReady" →
      nearestScope? gateBeforeShadow.sites "isReady" g = some ⟨23, 115⟩) ∧
    Unconditional gateBeforeShadow.sites "isReady" ⟨23, 115⟩ ∧
    report "isReady" ⟨6, 13⟩ ∈ (Config.allOn.lint "" gateBeforeShadow).ofRule
      RuleId.derivedConditionalNaming.name ∧
    ∃ before g later inner f outer, gateBeforeShadow.sites = before ++ g :: later ∧
      g.Reads "isReady" ∧ g.around.scopes = inner ++ f :: outer ∧
      (∀ s ∈ inner, binds gateBeforeShadow.sites "isReady" s = false) ∧
      binds gateBeforeShadow.sites "isReady" f = true ∧ binds before "isReady" f = false ∧
      Reads (writes before) "isReady" outer ⟨6, 13⟩ := by
  have hnearest : ∀ g ∈ gateBeforeShadow.sites, "isReady" ∈ gateNames g →
      nearestScope? gateBeforeShadow.sites "isReady" g = some ⟨23, 115⟩ := by
    decide
  have hidle : Unconditional gateBeforeShadow.sites "isReady" ⟨23, 115⟩ := by decide
  have hreport : report "isReady" ⟨6, 13⟩ ∈ (Config.allOn.lint "" gateBeforeShadow).ofRule
      RuleId.derivedConditionalNaming.name := by
    have hrun : run gateBeforeShadow.sites = [report "isReady" ⟨6, 13⟩] := rfl
    rw [ofRule_lint Config.allOn rfl, hrun]
    exact List.mem_singleton_self _
  have hhidden : ∀ g ∈ gateBeforeShadow.sites, g.Reads "isReady" →
      ∃ f, nearestScope? gateBeforeShadow.sites "isReady" g = some f ∧
        Unconditional gateBeforeShadow.sites "isReady" f :=
    fun g hg hreads => ⟨_, hnearest g hg (mem_gateNames_iff.mpr hreads), hidle⟩
  exact ⟨fun g hg hreads => hnearest g hg (mem_gateNames_iff.mpr hreads), hidle, hreport,
    (early_gate_report_iff Config.allOn rfl "" gateBeforeShadow "isReady" hhidden _).mp hreport⟩

end JsxLint.DerivedConditionalNaming
