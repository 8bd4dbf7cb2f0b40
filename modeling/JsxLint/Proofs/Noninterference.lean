import JsxLint.Proofs.EarlyGates
import JsxLint.Proofs.SignatureNames
import Mathlib.Data.List.Forall2

/-! Which names can have an influence on the reports of `derived-conditional-naming`. A gate only
looks up its own names in the scopes around it, and what it finds matters only if a condition of
the name is within reach. Two runs that differ in other names agree. Names in types are entered as
variables of the function or program around the type, so they are not without influence
altogether. -/
namespace JsxLint.DerivedConditionalNaming
open DerivedStore

instance (site : Site) (name : String) : Decidable (site.Reads name) :=
  decidable_of_iff _ mem_gateNames_iff

def InReach (sites : List Site) (name : String) (scopes : List Span) : Prop :=
  ∃ d ∈ sites, ∃ ident ∈ d.condition?, ident.name = name ∧ d.around.scope ∈ scopes

instance (sites : List Site) (name : String) (scopes : List Span) :
    Decidable (InReach sites name scopes) :=
  inferInstanceAs (Decidable (∃ d ∈ sites, ∃ ident ∈ d.condition?, ident.name = name ∧
    d.around.scope ∈ scopes))

/-- Some gate looks the name up in the scope, with a condition of the name in reach. -/
def Consulted (sites : List Site) (name : String) (scope : Span) : Prop :=
  ∃ g ∈ sites, g.Reads name ∧ scope ∈ g.around.scopes ∧ InReach sites name g.around.scopes

instance (sites : List Site) (name : String) (scope : Span) :
    Decidable (Consulted sites name scope) :=
  inferInstanceAs (Decidable (∃ g ∈ sites, g.Reads name ∧ scope ∈ g.around.scopes ∧
    InReach sites name g.around.scopes))

def Sourced (sites : List Site) (store : DerivedStore) : Prop :=
  ∀ name scope span, store.find? name scope = some ⟨span, .pending⟩ →
    ∃ d ∈ sites, ∃ ident ∈ d.condition?, ident.name = name ∧ d.around.scope = scope

section
variable {sites : List Site} {a b : DerivedStore}

lemma Sourced.record (h : Sourced sites a) {d : Site} (hd : d ∈ sites) {ident : Ident}
    (hident : d.condition? = some ident) :
    Sourced sites (a.record ident.name d.around.scope ident.span) := by
  intro name scope span hfind
  rw [find?_record] at hfind
  split at hfind
  · rename_i hkey
    exact ⟨d, hd, ident, hident, hkey.1.symm, hkey.2.symm⟩
  · exact h name scope span hfind

lemma Sourced.bindPlain (h : Sourced sites a) (n : String) (s place : Span) :
    Sourced sites (a.bindPlain n s place) := by
  intro name scope span hfind
  rw [find?_bindPlain] at hfind
  split at hfind
  · cases hfind
  · exact h name scope span hfind

lemma Sourced.consume (h : Sourced sites a) (n : String) (scopes : List Span) :
    Sourced sites (a.consume n scopes).2 := by
  intro name scope span hfind
  rcases find?_consume n scopes a name scope with hsame | ⟨-, -, place, -, -, hafter⟩
  · exact h name scope span (hsame ▸ hfind)
  · rw [hafter] at hfind
    cases hfind

/-- Without a condition in reach, reading a name does nothing. -/
lemma consume_of_not_inReach (h : Sourced sites a) {name : String} {scopes : List Span}
    (hreach : ¬ InReach sites name scopes) :
    (∀ span, (a.consume name scopes).1 ≠ .derived span) ∧ (a.consume name scopes).2 = a := by
  rcases consume_cases name scopes a with ⟨-, heq⟩ | ⟨scope, ⟨place, status⟩, hfirst, hv, hcases⟩
  · rw [heq]
    exact ⟨by simp, rfl⟩
  rcases hcases with ⟨hpending, -⟩ | ⟨-, heq⟩
  · obtain ⟨d, hd, ident, hident, hname, hscope⟩ := h name scope place (hpending ▸ hv)
    exact absurd ⟨d, hd, ident, hident, hname, hscope ▸ hfirst.mem⟩ hreach
  · rw [heq]
    exact ⟨by simp, rfl⟩

/-- Stores that agree on the name in all scopes resolve it alike. -/
lemma consume_congr {name : String} {scopes : List Span}
    (h : ∀ s ∈ scopes, a.find? name s = b.find? name s) :
    (a.consume name scopes).1 = (b.consume name scopes).1 ∧
      ∀ n s, a.find? n s = b.find? n s →
        (a.consume name scopes).2.find? n s = (b.consume name scopes).2.find? n s := by
  induction scopes with
  | nil => exact ⟨rfl, fun n s hns => hns⟩
  | cons scope outer ih =>
    rw [DerivedStore.consume, DerivedStore.consume, h scope List.mem_cons_self]
    split
    · exact ih fun s hs => h s (List.mem_cons_of_mem _ hs)
    · refine ⟨rfl, fun n s hns => ?_⟩
      rw [find?_put, find?_put, hns]
    · exact ⟨rfl, fun n s hns => hns⟩

/-- The stores have the same variables wherever a gate of the sites looks. -/
structure Alike (sites : List Site) (a b : DerivedStore) : Prop where
  find? : ∀ name scope, Consulted sites name scope → a.find? name scope = b.find? name scope
  left : Sourced sites a
  right : Sourced sites b

def Placed (sites : List Site) (gate : DeferredGate) : Prop :=
  ∃ g ∈ sites, g.Reads gate.name ∧ gate.scopes = g.around.scopes

lemma Alike.find?_of_placed (h : Alike sites a b) {gate : DeferredGate} (hgate : Placed sites gate)
    (hreach : InReach sites gate.name gate.scopes) {s : Span} (hs : s ∈ gate.scopes) :
    a.find? gate.name s = b.find? gate.name s := by
  obtain ⟨g, hg, hreads, hscopes⟩ := hgate
  rw [hscopes] at hs hreach
  exact h.find? _ _ ⟨g, hg, hreads, hs, hreach⟩

/-- A gate of the sites is handed the same condition by both stores, or none by either. -/
lemma Alike.consume (h : Alike sites a b) {gate : DeferredGate} (hgate : Placed sites gate) :
    (∀ span, (a.consume gate.name gate.scopes).1 = .derived span ↔
      (b.consume gate.name gate.scopes).1 = .derived span) ∧
    Alike sites (a.consume gate.name gate.scopes).2 (b.consume gate.name gate.scopes).2 := by
  by_cases hreach : InReach sites gate.name gate.scopes
  · obtain ⟨hanswer, hstore⟩ := consume_congr fun s hs => h.find?_of_placed hgate hreach hs
    refine ⟨fun span => by rw [hanswer], ?_⟩
    exact ⟨fun n s hns => hstore n s (h.find? n s hns), h.left.consume _ _, h.right.consume _ _⟩
  · obtain ⟨hnotA, hstoreA⟩ := consume_of_not_inReach h.left hreach
    obtain ⟨hnotB, hstoreB⟩ := consume_of_not_inReach h.right hreach
    refine ⟨fun span => iff_of_false (hnotA span) (hnotB span), ?_⟩
    rw [hstoreA, hstoreB]
    exact h

lemma Alike.resolveDeferred {gates : List DeferredGate} (h : Alike sites a b)
    (hgates : ∀ gate ∈ gates, Placed sites gate) :
    (resolveDeferred gates a).1 = (resolveDeferred gates b).1 ∧
      Alike sites (resolveDeferred gates a).2 (resolveDeferred gates b).2 := by
  induction gates generalizing a b with
  | nil => exact ⟨rfl, h⟩
  | cons gate gates ih =>
    obtain ⟨hanswer, hnext⟩ := h.consume (hgates gate List.mem_cons_self)
    obtain ⟨hfound, hstore⟩ :=
      ih hnext fun other hother => hgates other (List.mem_cons_of_mem _ hother)
    rcases resolveDeferred_cons gate gates a with ⟨span, hspan, heqA⟩ | ⟨hnone, heqA⟩
    · rcases resolveDeferred_cons gate gates b with ⟨span', hspan', heqB⟩ | ⟨hnone, -⟩
      · obtain rfl := Resolution.derived.inj (((hanswer span).mp hspan).symm.trans hspan')
        rw [heqA, heqB, hfound]
        exact ⟨rfl, hstore⟩
      · exact absurd ((hanswer span).mp hspan) (hnone span)
    · rcases resolveDeferred_cons gate gates b with ⟨span, hspan, -⟩ | ⟨-, heqB⟩
      · exact absurd ((hanswer span).mpr hspan) (hnone span)
      · rw [heqA, heqB]
        exact ⟨hfound, hstore⟩

def inReachOf (sites : List Site) (gates : List DeferredGate) : List DeferredGate :=
  gates.filter fun gate => InReach sites gate.name gate.scopes

/-- Gates without a condition in reach report nothing at the end. -/
lemma Sourced.resolveDeferred_inReachOf (h : Sourced sites a) (gates : List DeferredGate) :
    resolveDeferred gates a = resolveDeferred (inReachOf sites gates) a := by
  induction gates generalizing a with
  | nil => rfl
  | cons gate gates ih =>
    by_cases hreach : InReach sites gate.name gate.scopes
    · have hkept : inReachOf sites (gate :: gates) = gate :: inReachOf sites gates :=
        List.filter_cons_of_pos (by simpa using hreach)
      rw [hkept, resolveDeferred, resolveDeferred]
      have hnext := h.consume gate.name gate.scopes
      generalize a.consume gate.name gate.scopes = r at hnext ⊢
      obtain ⟨answer, next⟩ := r
      cases answer with
      | derived span => simp only [ih hnext]
      | other => exact ih hnext
      | unbound => exact ih hnext
    · have hdropped : inReachOf sites (gate :: gates) = inReachOf sites gates :=
        List.filter_cons_of_neg (by simpa using hreach)
      obtain ⟨hnot, hstore⟩ := consume_of_not_inReach h hreach
      rcases resolveDeferred_cons gate gates a with ⟨span, hspan, -⟩ | ⟨-, heq⟩
      · exact absurd hspan (hnot span)
      · rw [heq, hstore, hdropped, ih h]

lemma Alike.of_entries (h : Alike sites a b) {a' b' : DerivedStore} (ha : a'.entries = a.entries)
    (hb : b'.entries = b.entries) : Alike sites a' b' := by
  refine ⟨fun name scope hkey => ?_, fun name scope span hfind => ?_,
    fun name scope span hfind => ?_⟩
  · rw [find?_of_entries ha, find?_of_entries hb, h.find? name scope hkey]
  · exact h.left name scope span (find?_of_entries ha name scope ▸ hfind)
  · exact h.right name scope span (find?_of_entries hb name scope ▸ hfind)

structure Agree (sites : List Site) (a b : DerivedStore) : Prop extends Alike sites a b where
  deferred : inReachOf sites a.deferred = inReachOf sites b.deferred

lemma Agree.readGate (h : Agree sites a b) {scopes : List Span} {names : List String}
    (hnames : ∀ name ∈ names, Placed sites ⟨name, scopes⟩) :
    (readGate scopes names a).1 = (readGate scopes names b).1 ∧
      Agree sites (readGate scopes names a).2 (readGate scopes names b).2 := by
  have hgates : ∀ gate ∈ asGates scopes names, Placed sites gate := by
    rintro ⟨name, scopes'⟩ hgate
    obtain ⟨hname, rfl⟩ := mem_asGates_iff.mp hgate
    exact hnames name hname
  obtain ⟨hfoundA, hentriesA⟩ := readGate_eq_resolveDeferred scopes names (a := a) rfl
  obtain ⟨hfoundB, hentriesB⟩ := readGate_eq_resolveDeferred scopes names (a := b) rfl
  obtain ⟨hfound, hstore⟩ := h.toAlike.resolveDeferred hgates
  refine ⟨by rw [hfoundA, hfoundB, hfound], hstore.of_entries hentriesA hentriesB, ?_⟩
  have hkept : inReachOf sites ((asGates scopes names).filter (isUnknown a)) =
      inReachOf sites ((asGates scopes names).filter (isUnknown b)) := by
    rw [inReachOf, inReachOf, List.filter_filter, List.filter_filter]
    refine List.filter_congr fun gate hgate => ?_
    by_cases hreach : InReach sites gate.name gate.scopes
    · have hsame : isUnknown a gate = isUnknown b gate := by
        rw [Bool.eq_iff_iff, isUnknown_iff, isUnknown_iff]
        refine forall₂_congr fun s hs => ?_
        rw [Knows, Knows, h.find?_of_placed (hgates gate hgate) hreach hs]
      rw [hsame]
    · simp [hreach]
  rw [deferred_readGate, deferred_readGate, inReachOf, inReachOf, List.filter_append,
    List.filter_append]
  exact congrArg₂ (· ++ ·) h.deferred hkept

lemma Agree.record (h : Agree sites a b) {d : Site} (hd : d ∈ sites) {ident : Ident}
    (hident : d.condition? = some ident) :
    Agree sites (a.record ident.name d.around.scope ident.span)
      (b.record ident.name d.around.scope ident.span) := by
  refine ⟨⟨fun name scope hkey => ?_, h.left.record hd hident, h.right.record hd hident⟩,
    h.deferred⟩
  rw [find?_record, find?_record, h.find? name scope hkey]

/-- Variables may have different names where no gate looks for either. -/
lemma Agree.bindPlain (h : Agree sites a b) {n m : String} {s : Span} (span : Span)
    (hnames : n ≠ m → ¬ Consulted sites n s ∧ ¬ Consulted sites m s) :
    Agree sites (a.bindPlain n s span) (b.bindPlain m s span) := by
  refine ⟨⟨fun name scope hkey => ?_, h.left.bindPlain n s span, h.right.bindPlain m s span⟩, ?_⟩
  · rw [find?_bindPlain, find?_bindPlain]
    by_cases hsame : n = m
    · subst hsame
      by_cases hhere : name = n ∧ scope = s
      · obtain ⟨rfl, rfl⟩ := hhere
        rw [h.find? name scope hkey]
      · rw [if_neg fun hc => hhere ⟨hc.1, hc.2.1⟩, if_neg fun hc => hhere ⟨hc.1, hc.2.1⟩,
          h.find? name scope hkey]
    · obtain ⟨hn, hm⟩ := hnames hsame
      have hleft : ¬ (name = n ∧ scope = s) := fun hc => hn (hc.1 ▸ hc.2 ▸ hkey)
      have hright : ¬ (name = m ∧ scope = s) := fun hc => hm (hc.1 ▸ hc.2 ▸ hkey)
      rw [if_neg fun hc => hleft ⟨hc.1, hc.2.1⟩, if_neg fun hc => hright ⟨hc.1, hc.2.1⟩,
        h.find? name scope hkey]
  · rw [deferred_bindPlain, deferred_bindPlain, h.deferred]

/-- The sites play the same part in the two runs, up to names of variables that no gate looks
for. -/
structure Matches (sites : List Site) (s t : Site) : Prop where
  scopes : s.around.scopes = t.around.scopes
  gateNames : gateNames s = gateNames t
  condition : s.condition? = t.condition?
  introduced : s.introduced?.map Ident.span = t.introduced?.map Ident.span
  unconsulted : ∀ i ∈ s.introduced?, ∀ j ∈ t.introduced?, i.name ≠ j.name →
    ¬ Consulted sites i.name s.around.scope ∧ ¬ Consulted sites j.name s.around.scope

lemma Agree.visit (h : Agree sites a b) {s t : Site} (hs : s ∈ sites) (hst : Matches sites s t) :
    (visit s a).1 = (visit t b).1 ∧ Agree sites (visit s a).2 (visit t b).2 := by
  have hscope : s.around.scope = t.around.scope := by
    rw [Surroundings.scope, Surroundings.scope, hst.scopes]
  rw [visit_eq, visit_eq, write?, write?, ← hst.condition, ← hscope, ← hst.scopes, ← hst.gateNames]
  cases hcondition : s.condition? with
  | some ident => exact ⟨rfl, h.record hs hcondition⟩
  | none =>
    have hspans := hst.introduced
    have hfree := hst.unconsulted
    generalize t.introduced? = u at hspans hfree ⊢
    cases hident : s.introduced? with
    | some i =>
      rw [hident] at hspans hfree
      obtain ⟨j, rfl, hspan⟩ := Option.map_eq_some_iff.mp hspans.symm
      refine ⟨rfl, ?_⟩
      have hstore := h.bindPlain i.span (hfree i rfl j rfl)
      rw [Option.map_some, Option.map_some]
      simpa only [Call.step, hspan] using hstore
    | none =>
      rw [hident] at hspans
      obtain rfl := Option.map_eq_none_iff.mp hspans.symm
      exact h.readGate fun name hname => ⟨s, hs, mem_gateNames_iff.mp hname, rfl⟩

lemma Agree.walk (h : Agree sites a b) {part part' : List Site} (hpart : part ⊆ sites)
    (hmatch : List.Forall₂ (Matches sites) part part') :
    (walk part a).1 = (walk part' b).1 ∧ Agree sites (walk part a).2 (walk part' b).2 := by
  induction hmatch generalizing a b with
  | nil => exact ⟨rfl, h⟩
  | cons hst _ ih =>
    obtain ⟨hs, hrest⟩ := List.cons_subset.mp hpart
    obtain ⟨hfound, hnext⟩ := h.visit hs hst
    obtain ⟨hlater, hstore⟩ := ih hnext hrest
    rw [walk, walk, hfound, hlater]
    exact ⟨rfl, hstore⟩

end

lemma placed_of_mem_deferred {sites : List Site} {gate : DeferredGate}
    (h : gate ∈ (walk sites .empty).2.deferred) : Placed sites gate := by
  obtain ⟨before, g, later, rfl, hreads, hscopes, -⟩ := (mem_deferred_walk_iff sites gate).mp h
  exact ⟨g, by simp, hreads, hscopes⟩

/-- Runs over sites that play the same part report the same, in the same order. -/
theorem run_eq_of_matches {sites sites' : List Site}
    (hmatch : List.Forall₂ (Matches sites) sites sites') : run sites = run sites' := by
  have hempty : Agree sites .empty .empty :=
    ⟨⟨fun _ _ _ => rfl, fun _ _ _ h => by simp at h, fun _ _ _ h => by simp at h⟩, rfl⟩
  obtain ⟨hfound, hstore⟩ := hempty.walk (List.Subset.refl _) hmatch
  have hgates : ∀ gate ∈ inReachOf sites (walk sites .empty).2.deferred, Placed sites gate :=
    fun gate hgate => placed_of_mem_deferred (List.mem_of_mem_filter hgate)
  have hclosed : Alike sites (walk sites .empty).2.takeDeferred.2
      (walk sites' .empty).2.takeDeferred.2 := hstore.toAlike.of_entries rfl rfl
  rw [run, run, hfound, finish_eq, finish_eq, hclosed.left.resolveDeferred_inReachOf,
    hclosed.right.resolveDeferred_inReachOf, ← hstore.deferred, (hclosed.resolveDeferred hgates).1]

/-- A variable entered after a condition takes its place. -/
lemma not_holds_of_taken {front back : List Call} {name : String} {scope span place : Span}
    (hplace : span ≠ place) (hback : Call.record name scope span ∉ back) :
    ¬ Holds (front ++ .bindPlain name scope place :: back) name scope span := by
  rintro ⟨past, since, heq, hsince⟩
  rcases List.append_eq_append_iff.mp heq with ⟨mid, -, hmid⟩ | ⟨mid, -, hmid⟩
  · cases mid with
    | nil => cases (List.cons.inj hmid).1
    | cons call mid =>
      refine hback ?_
      rw [(List.cons.inj hmid).2]
      simp
  · cases mid with
    | nil => cases (List.cons.inj hmid).1
    | cons call mid =>
      exact hplace (hsince mid _ back (List.cons.inj hmid).2 rfl rfl).symm

/-- A variable that comes after the conditions of its name in the same scope, and before all gates
that read the name, silences them. -/
theorem report_not_mem_of_taken {sites before later : List Site} {b : Site} {name : String}
    {place : Span} (hsplit : sites = before ++ b :: later)
    (hvariable : b.introduced? = some ⟨name, place⟩)
    (hearly : ∀ d ∈ before, ∀ i ∈ d.condition?, i.name = name →
      d.around.scope = b.around.scope ∧ i.span ≠ place)
    (hlate : ∀ d ∈ later, ∀ i ∈ d.condition?, i.name ≠ name)
    (hgates : ∀ g ∈ before, ¬ g.Reads name) (span : Span) : report name span ∉ run sites := by
  have hkind := Site.kind_of_introduced? hvariable
  have hb : write? b = some (.bindPlain name b.around.scope place) := by
    rw [write?, condition?_eq_none (by simp [hkind]), hvariable]
    rfl
  have hnone : ∀ {mid : List Site} {scopes : List Span}, mid ⊆ later →
      ¬ Reads (writes (before ++ b :: mid)) name scopes span := by
    rintro mid scopes hmid ⟨scope, -, hholds⟩
    obtain ⟨d, hd, hident, rfl⟩ := mem_writes_record_iff.mp (record_mem_of_holds hholds)
    have hlateMid : Call.record name d.around.scope span ∉ writes mid := by
      intro hrecord
      obtain ⟨d', hd', hident', -⟩ := mem_writes_record_iff.mp hrecord
      exact hlate d' (hmid hd') _ hident' rfl
    rcases List.mem_append.mp hd with hd | hd
    · obtain ⟨hscope, hspan⟩ := hearly d hd _ hident rfl
      rw [writes, List.filterMap_append, List.filterMap_cons_some hb, ← hscope] at hholds
      exact not_holds_of_taken hspan hlateMid hholds
    · rcases List.mem_cons.mp hd with rfl | hd
      · rw [condition?_eq_none (by simp [hkind])] at hident
        cases hident
      · exact hlate d (hmid hd) _ hident rfl
  have hidle : ¬ b.Reads name := by
    intro hreads
    rw [write?_eq_none_of_reads hreads] at hb
    cases hb
  rw [mem_run_iff]
  rintro ⟨front, g, back, hplace, name', span', hreport, hreads, hfinds⟩
  obtain ⟨rfl, rfl⟩ := report_injective hreport
  have hafter : ∃ mid, front = before ++ b :: mid ∧ mid ⊆ later := by
    rcases List.append_eq_append_iff.mp (hsplit.symm.trans hplace) with
      ⟨mid, hfront, hmid⟩ | ⟨mid, hbefore, hmid⟩
    · cases mid with
      | nil => exact absurd ((List.cons.inj hmid).1 ▸ hreads) hidle
      | cons x mid =>
        obtain ⟨rfl, rfl⟩ := List.cons.inj hmid
        exact ⟨mid, hfront, List.subset_append_left _ _⟩
    · cases mid with
      | nil => exact absurd ((List.cons.inj hmid).1 ▸ hreads) hidle
      | cons x mid =>
        obtain ⟨rfl, -⟩ := List.cons.inj hmid
        exact absurd hreads (hgates g (by simp [hbefore]))
  obtain ⟨mid, rfl, hmid⟩ := hafter
  rcases hfinds with hfinds | ⟨-, hfinds⟩
  · exact hnone hmid hfinds
  · rw [hsplit] at hfinds
    exact hnone (List.Subset.refl later) hfinds

/-- Sites with the same form match, if no gate looks for the names in which they differ. -/
lemma matches_of_blank_eq {sites : List Site} {s t : Site} (h : s.blank = t.blank)
    (hfree : ∀ i ∈ s.introduced?, ∀ j ∈ t.introduced?, i.name ≠ j.name →
      ¬ Consulted sites i.name s.around.scope ∧ ¬ Consulted sites j.name s.around.scope) :
    Matches sites s t where
  scopes := by
    rw [← s.around.scopes_blank, ← t.around.scopes_blank]
    exact congrArg (fun site => site.around.scopes) h
  gateNames := by rw [← s.gateNames_blank, h, t.gateNames_blank]
  condition := by rw [← s.condition?_blank, h, t.condition?_blank]
  introduced := by rw [← s.introduced?_blank, h, t.introduced?_blank]
  unconsulted := hfree

/-- Names introduced in types make no difference unless a gate looks them up. One that comes after
the conditions of its name and before the gates leaves these conditions unreported. -/
theorem signature_names_inert_unless_consulted (c : Config) (source : String) (root : Node) :
    (∀ (source' : String) (root' : Node), root.blank false = root'.blank false →
      (∀ p ∈ root.sites.zip root'.sites, ∀ i ∈ p.1.introduced?, ∀ j ∈ p.2.introduced?,
        i.name ≠ j.name → ¬ Consulted root.sites i.name p.1.around.scope ∧
          ¬ Consulted root.sites j.name p.1.around.scope) →
      (c.lint source root).ofRule RuleId.derivedConditionalNaming.name =
        (c.lint source' root').ofRule RuleId.derivedConditionalNaming.name) ∧
    ∀ (before : List Site) (b : Site) (later : List Site) (name : String) (place : Span),
      root.sites = before ++ b :: later →
      b.introduced? = some ⟨name, place⟩ →
      (∀ d ∈ before, ∀ i ∈ d.condition?, i.name = name →
        d.around.scope = b.around.scope ∧ i.span ≠ place) →
      (∀ d ∈ later, ∀ i ∈ d.condition?, i.name ≠ name) → (∀ g ∈ before, ¬ g.Reads name) →
      ∀ span, report name span ∉
        (c.lint source root).ofRule RuleId.derivedConditionalNaming.name := by
  constructor
  · intro source' root' hsame hfree
    have hblank : List.Forall₂ (· = ·) (root.sites.map Site.blank)
        (root'.sites.map Site.blank) := by
      rw [List.forall₂_eq_eq_eq, ← root.sites_blank, ← root'.sites_blank, hsame]
    have hpairs := List.forall₂_map_right_iff.mp (List.forall₂_map_left_iff.mp hblank)
    obtain ⟨hlength, hforms⟩ := List.forall₂_iff_zip.mp hpairs
    have hmatch : List.Forall₂ (Matches root.sites) root.sites root'.sites :=
      List.forall₂_iff_zip.mpr ⟨hlength, fun hst =>
        matches_of_blank_eq (hforms hst) (hfree _ hst)⟩
    rw [Config.ofRule_lint_eq, Config.ofRule_lint_eq, Config.findingsOver, Config.findingsOver,
      run_eq_of_matches hmatch]
  · intro before b later name place hsplit hvariable hearly hlate hgates span
    rw [Config.ofRule_lint_eq, Config.findingsOver]
    split
    · exact report_not_mem_of_taken hsplit hvariable hearly hlate hgates span
    · exact List.not_mem_nil

/-- Written `const a = !x; type F = (name: string) => void; v = a && <X />`. -/
def aliasBetween (name : String) : Node :=
  .mk .program ⟨0, 59⟩ [
    .mk (.other "VariableDeclaration") ⟨0, 13⟩ [
      .mk .declarator ⟨6, 12⟩ [
        .mk (.binding "a") ⟨6, 7⟩ [],
        .mk (.unary .not) ⟨10, 12⟩ [.mk (.identifier "x") ⟨11, 12⟩ []]]],
    .mk .typeAlias ⟨14, 43⟩ [
      .mk (.binding "F") ⟨19, 20⟩ [],
      .mk .functionType ⟨23, 42⟩ [
        .mk .parameters ⟨23, 34⟩ [
          .mk .parameter ⟨24, 33⟩ [
            .mk (.binding name) ⟨24, 25⟩ [],
            .mk .ascription ⟨25, 33⟩ [.mk (.other "TSStringKeyword") ⟨27, 33⟩ []]]],
        .mk .ascription ⟨35, 42⟩ [.mk (.other "TSVoidKeyword") ⟨38, 42⟩ []]]],
    .mk (.other "ExpressionStatement") ⟨44, 59⟩ [
      .mk (.assignment (.other "=")) ⟨44, 58⟩ [
        .mk (.identifier "v") ⟨44, 45⟩ [],
        .mk (.logical .and) ⟨48, 58⟩ [
          .mk (.identifier "a") ⟨48, 49⟩ [],
          .mk .element ⟨53, 58⟩ [.mk .opening ⟨53, 58⟩ [.mk (.identifier "X") ⟨54, 55⟩ []]]]]]]

/-- Called `b` or `c`, the parameter of the type makes no difference; called `a`, it does. -/
theorem signature_names_inert_unless_consulted_aliasBetween :
    (Config.allOn.lint "" (aliasBetween "b")).ofRule RuleId.derivedConditionalNaming.name =
        (Config.allOn.lint "" (aliasBetween "c")).ofRule RuleId.derivedConditionalNaming.name ∧
      report "a" ⟨6, 7⟩ ∈ (Config.allOn.lint "" (aliasBetween "c")).ofRule
        RuleId.derivedConditionalNaming.name ∧
      report "a" ⟨6, 7⟩ ∉ (Config.allOn.lint "" (aliasBetween "a")).ofRule
        RuleId.derivedConditionalNaming.name := by
  refine ⟨?_, ?_, ?_⟩
  · exact (signature_names_inert_unless_consulted Config.allOn "" (aliasBetween "b")).1 ""
      (aliasBetween "c") rfl (by decide)
  · have hrun : run (aliasBetween "c").sites = [report "a" ⟨6, 7⟩] := rfl
    rw [ofRule_lint Config.allOn rfl, hrun]
    exact List.mem_singleton_self _
  · exact (signature_names_inert_unless_consulted Config.allOn "" (aliasBetween "a")).2
      ((aliasBetween "a").sites.take 11) ((aliasBetween "a").sites.get ⟨11, by decide⟩)
      ((aliasBetween "a").sites.drop 12) "a" ⟨24, 25⟩ rfl rfl (by decide) (by decide) (by decide) _

end JsxLint.DerivedConditionalNaming
