import JsxLint.Proofs.Gates
import JsxLint.Proofs.Sites
import JsxLint.Proofs.StoreHistory

/-! One walk of `derived-conditional-naming` over the sites of a tree, and exactly what it
reports. Gates leave the variables of the store as they are, so what a gate finds is told from
the declarations before it alone; a gate that finds nothing is read again at the end, with all
declarations. Which gate reports a condition is not asked, only whether some gate does. -/
namespace JsxLint.DerivedConditionalNaming
open DerivedStore

lemma consume_entries {a b : DerivedStore} (h : a.entries = b.entries) (name : String)
    (scopes : List Span) :
    (a.consume name scopes).1 = (b.consume name scopes).1 ∧
      (a.consume name scopes).2.entries = (b.consume name scopes).2.entries := by
  induction scopes with
  | nil => exact ⟨rfl, h⟩
  | cons scope outer ih =>
    rw [DerivedStore.consume, DerivedStore.consume, find?_of_entries h name scope]
    split
    · exact ih
    · exact ⟨rfl, by rw [put, put, h]⟩
    · exact ⟨rfl, h⟩

def asGates (scopes : List Span) (names : List String) : List DeferredGate :=
  names.map (⟨·, scopes⟩)

/-- A gate finds in the walk what it would find if it were one of the gates read at the end. -/
lemma readGate_eq_resolveDeferred (scopes : List Span) (names : List String)
    {a b : DerivedStore} (h : a.entries = b.entries) :
    (readGate scopes names a).1 = (resolveDeferred (asGates scopes names) b).1 ∧
      (readGate scopes names a).2.entries =
        (resolveDeferred (asGates scopes names) b).2.entries := by
  induction names generalizing a b with
  | nil => exact ⟨rfl, h⟩
  | cons name names ih =>
    obtain ⟨hans, hentries⟩ := consume_entries h name scopes
    simp only [readGate, asGates, List.map_cons, resolveDeferred]
    generalize a.consume name scopes = ra at hans hentries ⊢
    generalize b.consume name scopes = rb at hans hentries ⊢
    obtain ⟨ansA, storeA⟩ := ra
    obtain ⟨ansB, storeB⟩ := rb
    obtain rfl : ansA = ansB := hans
    cases ansA with
    | derived span =>
      obtain ⟨hfound, hstore⟩ := ih hentries
      exact ⟨congrArg (report name span :: ·) hfound, hstore⟩
    | other => exact ih hentries
    | unbound => exact ih (a := storeA.defer name scopes) hentries

/-- Reading gates one after the other: the head is read, the rest after it. -/
lemma resolveDeferred_cons (gate : DeferredGate) (gates : List DeferredGate)
    (store : DerivedStore) :
    (∃ span, (store.consume gate.name gate.scopes).1 = .derived span ∧
      resolveDeferred (gate :: gates) store =
        (report gate.name span ::
            (resolveDeferred gates (store.consume gate.name gate.scopes).2).1,
          (resolveDeferred gates (store.consume gate.name gate.scopes).2).2)) ∨
    (∀ span, (store.consume gate.name gate.scopes).1 ≠ .derived span) ∧
      resolveDeferred (gate :: gates) store =
        resolveDeferred gates (store.consume gate.name gate.scopes).2 := by
  rw [resolveDeferred]
  generalize store.consume gate.name gate.scopes = r
  obtain ⟨ans, next⟩ := r
  cases ans with
  | derived span => exact Or.inl ⟨span, rfl, rfl⟩
  | other => exact Or.inr ⟨by simp, rfl⟩
  | unbound => exact Or.inr ⟨by simp, rfl⟩

lemma resolveDeferred_cons_store (gate : DeferredGate) (gates : List DeferredGate)
    (store : DerivedStore) :
    (resolveDeferred (gate :: gates) store).2 =
      (resolveDeferred gates (store.consume gate.name gate.scopes).2).2 := by
  rcases resolveDeferred_cons gate gates store with ⟨_, -, heq⟩ | ⟨-, heq⟩
  · rw [heq]
  · rw [heq]

lemma sameView_resolveDeferred (gates : List DeferredGate) (store : DerivedStore) :
    SameView (resolveDeferred gates store).2 store := by
  induction gates generalizing store with
  | nil => exact fun _ _ => rfl
  | cons gate gates ih =>
    rw [resolveDeferred_cons_store]
    exact (ih _).trans (sameView_consume gate.name gate.scopes store)

/-- A condition becomes reported only together with its report. -/
lemma reported_resolveDeferred (gates : List DeferredGate) {store : DerivedStore} {name : String}
    {scope span : Span}
    (h : (resolveDeferred gates store).2.find? name scope = some ⟨span, .reported⟩) :
    store.find? name scope = some ⟨span, .reported⟩ ∨
      report name span ∈ (resolveDeferred gates store).1 := by
  induction gates generalizing store with
  | nil => exact Or.inl h
  | cons gate gates ih =>
    rw [resolveDeferred_cons_store] at h
    have hrest := ih h
    have hstep := find?_consume gate.name gate.scopes store name scope
    rcases resolveDeferred_cons gate gates store with ⟨sp, hans, heq⟩ | ⟨hans, heq⟩
    · rw [heq]
      rcases hrest with hold | hfound
      · rcases hstep with hsame | ⟨rfl, -, sp', -, hans', hnew⟩
        · exact Or.inl (hsame ▸ hold)
        · obtain rfl := Resolution.derived.inj (hans.symm.trans hans')
          obtain rfl : sp = span :=
            congrArg Variable.span (Option.some.inj (hnew.symm.trans hold))
          exact Or.inr List.mem_cons_self
      · exact Or.inr (List.mem_cons_of_mem _ hfound)
    · rw [heq]
      rcases hrest with hold | hfound
      · rcases hstep with hsame | ⟨-, -, sp', -, hans', -⟩
        · exact Or.inl (hsame ▸ hold)
        · exact absurd hans' (hans sp')
      · exact Or.inr hfound

lemma reported_stays (gates : List DeferredGate) {store : DerivedStore} {name : String}
    {scope span : Span} (h : store.find? name scope = some ⟨span, .reported⟩) :
    (resolveDeferred gates store).2.find? name scope = some ⟨span, .reported⟩ := by
  induction gates generalizing store with
  | nil => exact h
  | cons gate gates ih =>
    rw [resolveDeferred_cons_store]
    apply ih
    rcases find?_consume gate.name gate.scopes store name scope with hsame | ⟨-, -, sp, hold, -⟩
    · rw [hsame, h]
    · rw [h] at hold
      cases hold

lemma resolveDeferred_sound (gates : List DeferredGate) {store : DerivedStore} {d : Diagnostic}
    (h : d ∈ (resolveDeferred gates store).1) :
    ∃ gate ∈ gates, ∃ span, d = report gate.name span ∧ store.Finds gate.name gate.scopes span := by
  induction gates generalizing store with
  | nil => cases h
  | cons gate gates ih =>
    have hview := sameView_consume gate.name gate.scopes store
    have htail : d ∈ (resolveDeferred gates (store.consume gate.name gate.scopes).2).1 →
        ∃ g ∈ gate :: gates, ∃ span, d = report g.name span ∧ store.Finds g.name g.scopes span := by
      intro hd
      obtain ⟨g, hg, span, hreport, hfinds⟩ := ih hd
      exact ⟨g, List.mem_cons_of_mem gate hg, span, hreport,
        (hview.finds_iff g.name g.scopes span).mp hfinds⟩
    rcases resolveDeferred_cons gate gates store with ⟨span, hans, heq⟩ | ⟨-, heq⟩
    · rw [heq] at h
      rcases List.mem_cons.mp h with rfl | h
      · exact ⟨gate, List.mem_cons_self, span, rfl, consume_derived hans⟩
      · exact htail h
    · rw [heq] at h
      exact htail h

/-- Every condition that some gate finds has its report, from this reading or an earlier one. -/
lemma resolveDeferred_complete {gates : List DeferredGate} {store : DerivedStore} {span : Span}
    (gate : DeferredGate) (hgate : gate ∈ gates)
    (hfinds : store.Finds gate.name gate.scopes span) :
    report gate.name span ∈ (resolveDeferred gates store).1 ∨
      ∃ scope, store.find? gate.name scope = some ⟨span, .reported⟩ := by
  obtain ⟨scope, hfirst, hhas⟩ := hfinds
  have hsettled : (resolveDeferred gates store).2.find? gate.name scope =
      some ⟨span, .reported⟩ := by
    induction gates generalizing store with
    | nil => cases hgate
    | cons g gates ih =>
      rw [resolveDeferred_cons_store]
      rcases List.mem_cons.mp hgate with rfl | hgate
      · exact reported_stays gates (consume_settles hfirst hhas)
      · have hview := sameView_consume g.name g.scopes store
        exact ih hgate (hview.knows_eq gate.name ▸ hfirst)
          ((hview.hasCondition_iff gate.name scope span).mpr hhas)
  rcases reported_resolveDeferred gates hsettled with hold | hfound
  · exact Or.inr ⟨scope, hold⟩
  · exact Or.inl hfound

lemma count_resolveDeferred (p : Diagnostic → Bool) (gates : List DeferredGate)
    (store : DerivedStore) :
    (resolveDeferred gates store).1.countP p +
        (resolveDeferred gates store).2.pendings (fun name span => p (report name span)) ≤
      store.pendings (fun name span => p (report name span)) := by
  induction gates generalizing store with
  | nil => simp [resolveDeferred]
  | cons gate gates ih =>
    have hrest := ih (store.consume gate.name gate.scopes).2
    rcases pendings_consume (fun name span => p (report name span)) gate.name gate.scopes store
      with ⟨span, hans, hle⟩ | ⟨hans, hkept⟩
    · rcases resolveDeferred_cons gate gates store with ⟨span', hans', heq⟩ | ⟨hno, -⟩
      · obtain rfl := Resolution.derived.inj (hans.symm.trans hans')
        rw [resolveDeferred_cons_store, heq, List.countP_cons]
        omega
      · exact absurd hans (hno span)
    · rcases resolveDeferred_cons gate gates store with ⟨span, hans', -⟩ | ⟨-, heq⟩
      · exact absurd hans' (hans span)
      · rw [heq]
        rw [hkept] at hrest ⊢
        exact hrest

def gateNames (site : Site) : List String :=
  (site.gate?.map Node.gatingNames).getD []

lemma mem_gateNames_iff {site : Site} {name : String} :
    name ∈ gateNames site ↔ site.Reads name := by
  rw [Site.Reads, gateNames]
  simp only [← Site.gate?_eq_some_iff]
  cases site.gate? with
  | none => simp
  | some condition => simp

/-- The variable that the walk enters at a site: a derived condition at its declarator, any other
variable at its name. -/
def write? (site : Site) : Option Call :=
  match site.condition? with
  | some ident => some (.record ident.name site.around.scope ident.span)
  | none => site.introduced?.map fun ident => .bindPlain ident.name site.around.scope ident.span

def writes (sites : List Site) : List Call :=
  sites.filterMap write?

lemma write?_cases {site : Site} {call : Call} (h : write? site = some call) :
    (∃ ident, site.condition? = some ident ∧
      call = .record ident.name site.around.scope ident.span) ∨
    ∃ ident, site.introduced? = some ident ∧
      call = .bindPlain ident.name site.around.scope ident.span := by
  unfold write? at h
  split at h
  · rename_i ident hident
    exact Or.inl ⟨ident, hident, (Option.some.inj h).symm⟩
  · obtain ⟨ident, hident, rfl⟩ := Option.map_eq_some_iff.mp h
    exact Or.inr ⟨ident, hident, rfl⟩

lemma condition?_eq_none {site : Site} (h : site.node.kind ≠ .declarator) :
    site.condition? = none := by
  cases hc : site.condition? with
  | none => rfl
  | some ident => exact absurd (Site.kind_of_declared? (Site.declared?_of_condition? hc)) h

lemma introduced?_eq_none {site : Site} (h : ∀ name, site.node.kind ≠ .binding name) :
    site.introduced? = none := by
  cases hi : site.introduced? with
  | none => rfl
  | some ident => exact absurd (Site.kind_of_introduced? hi) (h ident.name)

lemma kind_of_gates {site : Site} {condition : Node} (h : site.Gates condition) :
    site.node.kind ≠ .declarator ∧ ∀ name, site.node.kind ≠ .binding name := by
  cases h with
  | conjunction => exact ⟨by simp, by simp⟩
  | ternary => exact ⟨by simp, by simp⟩
  | prop => exact ⟨by simp, by simp⟩

lemma write?_eq_none_of_reads {site : Site} {name : String} (h : site.Reads name) :
    write? site = none := by
  obtain ⟨condition, hgate, -⟩ := h
  obtain ⟨hdecl, hbinding⟩ := kind_of_gates hgate
  rw [write?, condition?_eq_none hdecl, introduced?_eq_none hbinding]
  rfl

lemma gateNames_eq_nil {site : Site}
    (h : site.node.kind = .declarator ∨ ∃ name, site.node.kind = .binding name) :
    gateNames site = [] := by
  cases hg : site.gate? with
  | none => rw [gateNames, hg]; rfl
  | some condition =>
    obtain ⟨hdecl, hbinding⟩ := kind_of_gates (Site.gate?_eq_some_iff.mp hg)
    rcases h with h | ⟨name, h⟩
    · exact absurd h hdecl
    · exact absurd h (hbinding name)

lemma mem_writes_record_iff {sites : List Site} {name : String} {scope span : Span} :
    Call.record name scope span ∈ writes sites ↔
      ∃ d ∈ sites, d.condition? = some ⟨name, span⟩ ∧ d.around.scope = scope := by
  rw [writes, List.mem_filterMap]
  constructor
  · rintro ⟨d, hd, hw⟩
    rcases write?_cases hw with ⟨ident, hident, hcall⟩ | ⟨ident, -, hcall⟩
    · obtain ⟨rfl, rfl, rfl⟩ := Call.record.inj hcall
      exact ⟨d, hd, hident, rfl⟩
    · cases hcall
  · rintro ⟨d, hd, hident, rfl⟩
    exact ⟨d, hd, by rw [write?, hident]⟩

lemma mem_writes_bindPlain_iff {sites : List Site} {name : String} {scope span : Span} :
    Call.bindPlain name scope span ∈ writes sites ↔
      ∃ b ∈ sites, b.introduced? = some ⟨name, span⟩ ∧ b.around.scope = scope := by
  rw [writes, List.mem_filterMap]
  constructor
  · rintro ⟨b, hb, hw⟩
    rcases write?_cases hw with ⟨ident, -, hcall⟩ | ⟨ident, hident, hcall⟩
    · cases hcall
    · obtain ⟨rfl, rfl, rfl⟩ := Call.bindPlain.inj hcall
      exact ⟨b, hb, hident, rfl⟩
  · rintro ⟨b, hb, hident, rfl⟩
    have hkind := Site.kind_of_introduced? hident
    exact ⟨b, hb, by rw [write?, condition?_eq_none (by simp [hkind]), hident]; rfl⟩

lemma written_writes_iff {sites : List Site} {name : String} {scope : Span} :
    Written (writes sites) name scope ↔
      ∃ site ∈ sites, ∃ span, (site.condition? = some ⟨name, span⟩ ∨
        site.introduced? = some ⟨name, span⟩) ∧ site.around.scope = scope := by
  constructor
  · rintro ⟨call, hcall, hwrites⟩
    cases call with
    | record n s span =>
      obtain ⟨rfl, rfl⟩ := hwrites
      obtain ⟨d, hd, hident, hscope⟩ := mem_writes_record_iff.mp hcall
      exact ⟨d, hd, span, Or.inl hident, hscope⟩
    | bindPlain n s span =>
      obtain ⟨rfl, rfl⟩ := hwrites
      obtain ⟨b, hb, hident, hscope⟩ := mem_writes_bindPlain_iff.mp hcall
      exact ⟨b, hb, span, Or.inr hident, hscope⟩
    | consume n scopes => cases hwrites
    | defer n scopes => cases hwrites
    | takeDeferred => cases hwrites
  · rintro ⟨site, hsite, span, hident | hident, hscope⟩
    · exact ⟨_, mem_writes_record_iff.mpr ⟨site, hsite, hident, hscope⟩, rfl, rfl⟩
    · exact ⟨_, mem_writes_bindPlain_iff.mpr ⟨site, hsite, hident, hscope⟩, rfl, rfl⟩

/-- A site either enters a variable or is read as a gate. -/
theorem visit_eq (site : Site) (store : DerivedStore) :
    visit site store =
      match write? site with
      | some call => ([], call.step store)
      | none => readGate site.around.scopes (gateNames site) store := by
  unfold visit
  split
  · rename_i hkind
    have hidle : site.introduced? = none := introduced?_eq_none (by simp [hkind])
    rw [gateNames_eq_nil (Or.inl hkind), write?, hidle, Site.condition?]
    cases site.node.declarator?.bind candidate? with
    | none => rfl
    | some ident => rfl
  · rename_i name hkind
    have hidle : site.condition? = none := condition?_eq_none (by simp [hkind])
    rw [gateNames_eq_nil (Or.inr ⟨name, hkind⟩), write?, hidle, Site.introduced?]
    simp only [hkind]
    split
    · rfl
    · rfl
  · rename_i hdecl hbinding
    rw [write?, condition?_eq_none hdecl, introduced?_eq_none hbinding, gateNames]
    cases site.gate? with
    | none => rfl
    | some condition => rfl

def walk : List Site → DerivedStore → List Diagnostic × DerivedStore
  | [], store => ([], store)
  | site :: sites, store =>
    ((visit site store).1 ++ (walk sites (visit site store).2).1,
      (walk sites (visit site store).2).2)

/-- The reports of a whole run: those of the walk, then those of the gates kept for later. -/
def run (sites : List Site) : List Diagnostic :=
  (walk sites .empty).1 ++ (finish (walk sites .empty).2).1

lemma walk_snoc (sites : List Site) (site : Site) (store : DerivedStore) :
    walk (sites ++ [site]) store =
      ((walk sites store).1 ++ (visit site (walk sites store).2).1,
        (visit site (walk sites store).2).2) := by
  induction sites generalizing store with
  | nil => simp [walk]
  | cons first sites ih => simp [walk, ih]

lemma writes_snoc (sites : List Site) (site : Site) :
    writes (sites ++ [site]) = writes sites ++ (write? site).toList := by
  rw [writes, List.filterMap_append]
  cases h : write? site with
  | none => simp [writes, h]
  | some call => simp [writes, h]

lemma sameView_readGate (scopes : List Span) (names : List String) (store : DerivedStore) :
    SameView (readGate scopes names store).2 store := by
  intro name scope
  rw [find?_of_entries (readGate_eq_resolveDeferred scopes names rfl).2]
  exact sameView_resolveDeferred (asGates scopes names) store name scope

/-- The variables known after a walk are those entered by it: gates leave no trace among them. -/
theorem sameView_walk (sites : List Site) :
    SameView (walk sites .empty).2 (after (writes sites)) := by
  induction sites using List.reverseRecOn with
  | nil => exact fun _ _ => rfl
  | append_singleton sites site ih =>
    rw [walk_snoc, writes_snoc, visit_eq]
    cases write? site with
    | none =>
      rw [Option.toList_none, List.append_nil]
      exact (sameView_readGate _ _ _).trans ih
    | some call =>
      rw [Option.toList_some, after_snoc]
      exact ih.step call

lemma knows_walk_iff (sites : List Site) (name : String) (scope : Span) :
    (walk sites .empty).2.Knows name scope ↔ Written (writes sites) name scope :=
  ((sameView_walk sites).knows_iff name scope).trans (knows_after_iff _ name scope)

lemma finds_walk_iff (sites : List Site) (name : String) (scopes : List Span) (span : Span) :
    (walk sites .empty).2.Finds name scopes span ↔ Reads (writes sites) name scopes span :=
  ((sameView_walk sites).finds_iff name scopes span).trans (finds_after_iff _ name scopes span)

lemma mem_asGates_iff {scopes : List Span} {names : List String} {gate : DeferredGate} :
    gate ∈ asGates scopes names ↔ gate.name ∈ names ∧ gate.scopes = scopes := by
  rw [asGates, List.mem_map]
  constructor
  · rintro ⟨name, hname, rfl⟩
    exact ⟨hname, rfl⟩
  · rintro ⟨hname, rfl⟩
    exact ⟨gate.name, hname, rfl⟩

lemma visit_sound {site : Site} {store : DerivedStore} {d : Diagnostic}
    (h : d ∈ (visit site store).1) :
    ∃ name span, d = report name span ∧ site.Reads name ∧
      store.Finds name site.around.scopes span := by
  rw [visit_eq] at h
  cases hw : write? site with
  | some call => simp [hw] at h
  | none =>
    rw [hw] at h
    rw [(readGate_eq_resolveDeferred _ _ rfl).1] at h
    obtain ⟨gate, hgate, span, hreport, hfinds⟩ := resolveDeferred_sound _ h
    obtain ⟨hname, hscopes⟩ := mem_asGates_iff.mp hgate
    exact ⟨gate.name, span, hreport, mem_gateNames_iff.mp hname, hscopes ▸ hfinds⟩

lemma visit_complete {site : Site} {store : DerivedStore} {name : String} {span : Span}
    (hreads : site.Reads name) (hfinds : store.Finds name site.around.scopes span) :
    report name span ∈ (visit site store).1 ∨
      ∃ scope, store.find? name scope = some ⟨span, .reported⟩ := by
  rw [visit_eq, write?_eq_none_of_reads hreads]
  simp only [(readGate_eq_resolveDeferred site.around.scopes (gateNames site) rfl).1]
  exact resolveDeferred_complete ⟨name, site.around.scopes⟩
    (mem_asGates_iff.mpr ⟨mem_gateNames_iff.mpr hreads, rfl⟩) hfinds

lemma reported_visit {site : Site} {store : DerivedStore} {name : String} {scope span : Span}
    (h : (visit site store).2.find? name scope = some ⟨span, .reported⟩) :
    store.find? name scope = some ⟨span, .reported⟩ ∨ report name span ∈ (visit site store).1 := by
  rw [visit_eq] at h ⊢
  cases hw : write? site with
  | none =>
    rw [hw] at h
    simp only at h ⊢
    rw [find?_of_entries (readGate_eq_resolveDeferred _ _ rfl).2] at h
    rw [(readGate_eq_resolveDeferred _ _ rfl).1]
    exact reported_resolveDeferred _ h
  | some call =>
    rw [hw] at h
    have hread : ∀ scopes, call ≠ .consume name scopes := by
      rcases write?_cases hw with ⟨ident, -, rfl⟩ | ⟨ident, -, rfl⟩
      · simp
      · simp
    rcases (find?_step (by simp) hread store scope span).mp h with ⟨-, hpending⟩ | ⟨hold, -⟩
    · cases hpending
    · exact Or.inl hold

lemma reported_walk {sites : List Site} {name : String} {scope span : Span}
    (h : (walk sites .empty).2.find? name scope = some ⟨span, .reported⟩) :
    report name span ∈ (walk sites .empty).1 := by
  induction sites using List.reverseRecOn with
  | nil => cases h
  | append_singleton sites site ih =>
    rw [walk_snoc] at h ⊢
    rcases reported_visit h with hold | hfound
    · exact List.mem_append_left _ (ih hold)
    · exact List.mem_append_right _ hfound

/-- The places of a list, each with what comes before it, read from the end. -/
lemma exists_place_snoc {α : Type} {p : List α → α → Prop} (xs : List α) (x : α) :
    (∃ before a later, xs ++ [x] = before ++ a :: later ∧ p before a) ↔
      (∃ before a later, xs = before ++ a :: later ∧ p before a) ∨ p xs x := by
  constructor
  · rintro ⟨before, a, later, hsplit, hp⟩
    rcases List.eq_nil_or_concat later with rfl | ⟨later, last, rfl⟩
    · obtain ⟨rfl, hlast⟩ := List.append_inj' hsplit rfl
      obtain rfl := (List.cons.inj hlast).1
      exact Or.inr hp
    · have hsplit' : xs ++ [x] = (before ++ a :: later) ++ [last] := by simpa using hsplit
      exact Or.inl ⟨before, a, later, (List.append_inj' hsplit' rfl).1, hp⟩
  · rintro (⟨before, a, later, rfl, hp⟩ | hp)
    · exact ⟨before, a, later ++ [x], by simp, hp⟩
    · exact ⟨xs, x, [], rfl, hp⟩

/-- The walk reports exactly what its gates find among the declarations before them. -/
theorem mem_walk_iff (sites : List Site) (d : Diagnostic) :
    d ∈ (walk sites .empty).1 ↔
      ∃ before g later, sites = before ++ g :: later ∧ ∃ name span, d = report name span ∧
        g.Reads name ∧ Reads (writes before) name g.around.scopes span := by
  induction sites using List.reverseRecOn with
  | nil => simp [walk]
  | append_singleton sites site ih =>
    rw [walk_snoc, List.mem_append, exists_place_snoc, ← ih]
    constructor
    · rintro (hfound | hfound)
      · exact Or.inl hfound
      · obtain ⟨name, span, hreport, hreads, hfinds⟩ := visit_sound hfound
        exact Or.inr ⟨name, span, hreport, hreads, (finds_walk_iff sites name _ span).mp hfinds⟩
    · rintro (hfound | ⟨name, span, rfl, hreads, hfinds⟩)
      · exact Or.inl hfound
      · rcases visit_complete hreads ((finds_walk_iff sites name _ span).mpr hfinds) with
          hfound | ⟨scope, hreported⟩
        · exact Or.inr hfound
        · exact Or.inl (reported_walk hreported)

def isUnknown (store : DerivedStore) (gate : DeferredGate) : Bool :=
  gate.scopes.all fun s => (store.find? gate.name s).isNone

lemma isUnknown_iff {store : DerivedStore} {gate : DeferredGate} :
    isUnknown store gate = true ↔ ∀ s ∈ gate.scopes, ¬ store.Knows gate.name s := by
  simp [isUnknown, Knows]

/-- Of the names that a gate reads, it keeps those for later that no scope has. -/
lemma deferred_readGate (scopes : List Span) (names : List String) (store : DerivedStore) :
    (readGate scopes names store).2.deferred =
      store.deferred ++ (asGates scopes names).filter (isUnknown store) := by
  induction names generalizing store with
  | nil => simp [readGate, asGates]
  | cons name names ih =>
    rw [asGates, List.map_cons, ← asGates]
    rcases consume_cases name scopes store with ⟨hnone, heq⟩ | ⟨scope, v, hfirst, -, hcases⟩
    · rw [List.filter_cons_of_pos (isUnknown_iff.mpr hnone), readGate, heq]
      exact (ih (store.defer name scopes)).trans (List.append_assoc _ _ _)
    · have hknown : ¬ isUnknown store ⟨name, scopes⟩ = true :=
        fun h => isUnknown_iff.mp h scope hfirst.mem hfirst.holds
      have hview : isUnknown (store.consume name scopes).2 = isUnknown store := by
        funext gate
        rw [Bool.eq_iff_iff, isUnknown_iff, isUnknown_iff,
          (sameView_consume name scopes store).knows_eq]
      rw [List.filter_cons_of_neg hknown, readGate, ← hview]
      rcases hcases with ⟨-, heq⟩ | ⟨-, heq⟩
      · rw [heq]
        exact ih _
      · rw [heq]
        exact ih _

lemma mem_deferred_readGate_iff (scopes : List Span) (names : List String) (store : DerivedStore)
    (gate : DeferredGate) :
    gate ∈ (readGate scopes names store).2.deferred ↔
      gate ∈ store.deferred ∨ gate.name ∈ names ∧ gate.scopes = scopes ∧
        ∀ s ∈ scopes, ¬ store.Knows gate.name s := by
  rw [deferred_readGate, List.mem_append, List.mem_filter, mem_asGates_iff, isUnknown_iff,
    and_assoc]
  refine or_congr_right (and_congr_right fun _ => and_congr_right fun hscopes => ?_)
  rw [hscopes]

lemma deferred_bindPlain (store : DerivedStore) (n : String) (s span : Span) :
    (store.bindPlain n s span).deferred = store.deferred := by
  rw [DerivedStore.bindPlain]
  split
  · rfl
  · rfl

lemma mem_deferred_walk_iff (sites : List Site) (gate : DeferredGate) :
    gate ∈ (walk sites .empty).2.deferred ↔
      ∃ before g later, sites = before ++ g :: later ∧ g.Reads gate.name ∧
        gate.scopes = g.around.scopes ∧
        ∀ s ∈ g.around.scopes, ¬ Written (writes before) gate.name s := by
  induction sites using List.reverseRecOn with
  | nil => simp [walk, DerivedStore.empty]
  | append_singleton sites site ih =>
    rw [walk_snoc, exists_place_snoc, ← ih, visit_eq]
    simp only [← knows_walk_iff]
    cases hw : write? site with
    | none => rw [mem_deferred_readGate_iff, mem_gateNames_iff]
    | some call =>
      have hidle : ¬ site.Reads gate.name := by
        intro hreads
        rw [write?_eq_none_of_reads hreads] at hw
        cases hw
      have hkept : (call.step (walk sites .empty).2).deferred = (walk sites .empty).2.deferred := by
        rcases write?_cases hw with ⟨ident, -, rfl⟩ | ⟨ident, -, rfl⟩
        · rfl
        · exact deferred_bindPlain _ _ _ _
      simp only [hkept, hidle, false_and, or_false]

lemma finish_eq (store : DerivedStore) :
    finish store = resolveDeferred store.deferred store.takeDeferred.2 := rfl

/-- A condition is reported exactly if some gate resolves to it: among the declarations before the
gate if one of them has the name in a scope around, otherwise among all. -/
theorem mem_run_iff (sites : List Site) (d : Diagnostic) :
    d ∈ run sites ↔
      ∃ before g later, sites = before ++ g :: later ∧ ∃ name span, d = report name span ∧
        g.Reads name ∧
        (Reads (writes before) name g.around.scopes span ∨
          (∀ s ∈ g.around.scopes, ¬ Written (writes before) name s) ∧
            Reads (writes sites) name g.around.scopes span) := by
  rw [run, List.mem_append, finish_eq]
  constructor
  · rintro (hfound | hfound)
    · obtain ⟨before, g, later, hsplit, name, span, hreport, hreads, hfinds⟩ :=
        (mem_walk_iff sites d).mp hfound
      exact ⟨before, g, later, hsplit, name, span, hreport, hreads, Or.inl hfinds⟩
    · obtain ⟨gate, hgate, span, hreport, hfinds⟩ := resolveDeferred_sound _ hfound
      obtain ⟨before, g, later, hsplit, hreads, hscopes, hnone⟩ :=
        (mem_deferred_walk_iff sites gate).mp hgate
      refine ⟨before, g, later, hsplit, gate.name, span, hreport, hreads, Or.inr ⟨hnone, ?_⟩⟩
      rw [← hscopes, ← finds_walk_iff]
      exact hfinds
  · rintro ⟨before, g, later, hsplit, name, span, rfl, hreads, hfinds | ⟨hnone, hfinds⟩⟩
    · exact Or.inl ((mem_walk_iff sites _).mpr
        ⟨before, g, later, hsplit, name, span, rfl, hreads, hfinds⟩)
    · have hgate := (mem_deferred_walk_iff sites ⟨name, g.around.scopes⟩).mpr
        ⟨before, g, later, hsplit, hreads, rfl, hnone⟩
      have hfinds' : (walk sites .empty).2.takeDeferred.2.Finds name g.around.scopes span :=
        (finds_walk_iff sites name _ span).mpr hfinds
      rcases resolveDeferred_complete _ hgate hfinds' with hfound | ⟨scope, hreported⟩
      · exact Or.inr hfound
      · exact Or.inl (reported_walk hreported)

lemma count_visit (p : Diagnostic → Bool) (site : Site) (store : DerivedStore) :
    (visit site store).1.countP p +
        (visit site store).2.pendings (fun name span => p (report name span)) ≤
      store.pendings (fun name span => p (report name span)) +
        site.condition?.toList.countP fun ident => p (report ident.name ident.span) := by
  rw [visit_eq]
  cases hw : write? site with
  | none =>
    obtain ⟨hfound, hentries⟩ :=
      readGate_eq_resolveDeferred site.around.scopes (gateNames site) (a := store) rfl
    have hcount := count_resolveDeferred p (asGates site.around.scopes (gateNames site)) store
    simp only [DerivedStore.pendings, hfound, hentries] at hcount ⊢
    omega
  | some call =>
    rcases write?_cases hw with ⟨ident, hident, rfl⟩ | ⟨ident, -, rfl⟩
    · have hle := pendings_record_le (fun name span => p (report name span)) store ident.name
        site.around.scope ident.span
      rw [hident, Option.toList_some, List.countP_singleton, List.countP_nil, Nat.zero_add]
      exact hle
    · have hle := pendings_bindPlain_le (fun name span => p (report name span)) store ident.name
        site.around.scope ident.span
      rw [List.countP_nil, Nat.zero_add]
      exact Nat.le_add_right_of_le hle

lemma count_walk (p : Diagnostic → Bool) (sites : List Site) (store : DerivedStore) :
    (walk sites store).1.countP p +
        (walk sites store).2.pendings (fun name span => p (report name span)) ≤
      store.pendings (fun name span => p (report name span)) +
        (conditionIdents sites).countP fun ident => p (report ident.name ident.span) := by
  induction sites generalizing store with
  | nil => simp [walk, conditionIdents]
  | cons site sites ih =>
    have hvisit := count_visit p site store
    have hrest := ih (visit site store).2
    have hidents : conditionIdents (site :: sites) =
        site.condition?.toList ++ conditionIdents sites := by
      cases hc : site.condition? with
      | none => simp [conditionIdents, hc]
      | some ident => simp [conditionIdents, hc]
    rw [walk, hidents, List.countP_append, List.countP_append]
    simp only
    omega

/-- No more reports of a kind are made than there are declarations that could be reported so. -/
theorem count_run_le (p : Diagnostic → Bool) (sites : List Site) :
    (run sites).countP p ≤
      (conditionIdents sites).countP fun ident => p (report ident.name ident.span) := by
  have hwalk := count_walk p sites .empty
  have hfinish := count_resolveDeferred p (walk sites .empty).2.deferred
    (walk sites .empty).2.takeDeferred.2
  have hsame :
      (walk sites .empty).2.takeDeferred.2.pendings (fun name span => p (report name span)) =
        (walk sites .empty).2.pendings (fun name span => p (report name span)) := rfl
  have hempty : DerivedStore.empty.pendings (fun name span => p (report name span)) = 0 := rfl
  rw [run, List.countP_append, finish_eq]
  omega

end JsxLint.DerivedConditionalNaming
