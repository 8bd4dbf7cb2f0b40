import JsxLint.Proofs.EarlyGates

/-! Parameters hide the conditions outside their function. A name may be introduced at any depth of
a destructured parameter and may have a default; wherever it stands, a gate in the body of the
function reads the parameter and passes over conditions further out. A rest parameter is not among
the variables that the walk enters, so it hides nothing, and a gate that reads it is taken to read
the condition of that name outside. Scopes are told apart by their spans, as in the store. -/
namespace JsxLint

/-- Among the parts of a function, a parameter introduces the name; rest parameters do not
count. -/
def HasParameter (signature : List Node) (name : String) : Prop :=
  ∃ span items, Node.mk .parameters span items ∈ signature ∧ ∃ item ∈ items, ∃ p place,
    item.parameter? = some p ∧ p.pattern.Introduces ⟨name, place⟩

/-- The site `g` stands in the body of the function at `f`, below `inner` and in no nested function;
`signature` are the parts before the body. -/
structure Site.InBody (g f : Site) (signature : List Node) (body : Node) (inner : Surroundings) :
    Prop where
  function : f.node.kind = .arrow ∨ ∃ form, f.node.kind = .function form
  parts : f.node.children = signature ++ [body]
  isBody : body.kind = .functionBody
  single : ∀ part ∈ signature, part.kind ≠ .functionBody
  path : g.around = inner ++ body :: f.node :: f.around
  direct : ∀ n ∈ inner, Surroundings.isScope n = false

def Site.InRestParameter (b f : Site) : Prop :=
  ∃ path rest list, b.around = path ++ rest :: list :: f.node :: f.around ∧
    (∀ n ∈ path, n.isTransparent = true) ∧ rest.kind = .other "FormalParameterRest" ∧
    list.kind = .parameters

/-- What stands in the signature of a function comes before what stands in its body. -/
lemma signature_sites_subset {around path : Surroundings} {signature : List Node} {body : Node}
    {part rest : List Site} {g : Site}
    (h : sitesBelowAll around (signature ++ [body]) = part ++ g :: rest)
    (hpath : g.around = path ++ body :: around) (hsingle : ∀ n ∈ signature, n ≠ body) :
    sitesBelowAll around signature ⊆ part := by
  induction signature generalizing part with
  | nil =>
    rw [sitesBelowAll]
    exact List.nil_subset part
  | cons n signature ih =>
    rcases sitesBelowAll_cons_split h with ⟨more, hsites, -⟩ | ⟨front, rfl, hrest⟩
    · have hmem : g ∈ n.sitesBelow around := by
        rw [hsites]
        simp
      rcases n.around_of_mem_sitesBelow around hmem with rfl | ⟨inner, hinner⟩
      · have hlong := congrArg List.length hpath
        simp only [List.length_append, List.length_cons] at hlong
        omega
      · obtain ⟨-, hsame⟩ := List.append_inj' (hpath.symm.trans hinner) rfl
        exact absurd (List.cons.inj hsame).1.symm (hsingle n List.mem_cons_self)
    · have htail := ih hrest fun m hm => hsingle m (List.mem_cons_of_mem _ hm)
      rw [sitesBelowAll]
      exact List.append_subset.mpr ⟨List.subset_append_left _ _,
        fun s hs => List.mem_append_right _ (htail hs)⟩

/-- No variable is entered for a name in a rest parameter. -/
lemma Site.InRestParameter.introduced?_eq_none {b f : Site} (h : b.InRestParameter f)
    (hf : f.node.kind = .arrow ∨ ∃ form, f.node.kind = .function form) : b.introduced? = none := by
  obtain ⟨path, rest, list, haround, hpath, hrest, hlist⟩ := h
  have hfunction : Surroundings.bindsVariable (f.node :: f.around) = false := by
    rw [Surroundings.bindsVariable]
    rcases hf with hkind | ⟨form, hkind⟩
    · rw [hkind]
    · rw [hkind]
  have hbinds : b.around.bindsVariable = false := by
    rw [haround]
    clear haround
    induction path with
    | nil =>
      rw [List.nil_append, Surroundings.bindsVariable_cons (by simp [Node.isTransparent, hrest]),
        Surroundings.bindsVariable_cons (by simp [Node.isTransparent, hlist]), hfunction]
    | cons n path ih =>
      rw [List.cons_append, Surroundings.bindsVariable_cons (hpath n List.mem_cons_self)]
      exact ih fun m hm => hpath m (List.mem_cons_of_mem n hm)
  unfold Site.introduced?
  split
  · simp [hbinds]
  · rfl

namespace Site.InBody
variable {g f : Site} {signature : List Node} {body : Node} {inner : Surroundings}

lemma isScope (h : g.InBody f signature body inner) : Surroundings.isScope f.node = true := by
  rcases h.function with hkind | ⟨form, hkind⟩
  · simp [Surroundings.isScope, hkind]
  · simp [Surroundings.isScope, hkind]

lemma scopes_eq (h : g.InBody f signature body inner) :
    g.around.scopes = f.node.span :: f.around.scopes := by
  have hinner : inner.filter Surroundings.isScope = [] :=
    List.filter_eq_nil_iff.mpr fun n hn => by simp [h.direct n hn]
  have hbody : Surroundings.isScope body = false := by simp [Surroundings.isScope, h.isBody]
  rw [Surroundings.scopes, h.path, List.filter_append, hinner, List.nil_append,
    List.filter_cons_of_neg (by simp [hbody]), List.filter_cons_of_pos h.isScope, List.map_cons,
    Surroundings.scopes]

/-- The parameters of a function come before the gates in its body. -/
theorem binds_before (h : g.InBody f signature body inner) {root : Node} {before later : List Site}
    (hsplit : root.sites = before ++ g :: later) {name : String}
    (hparameter : HasParameter signature name) :
    DerivedConditionalNaming.binds before name f.node.span = true := by
  have hpath : g.around = (inner ++ [body]) ++ f.node :: f.around := by simp [h.path]
  obtain ⟨front, part, rest, rfl, hpart⟩ :=
    root.sitesBelow_ancestor [] hsplit hpath (Nat.zero_le _)
  rw [h.parts] at hpart
  have hfirst : sitesBelowAll (f.node :: f.around) signature ⊆ part :=
    signature_sites_subset hpart h.path fun n hn heq => h.single n hn (heq ▸ h.isBody)
  obtain ⟨span, items, hlist, item, hitem, p, place, hp, hintro⟩ := hparameter
  obtain ⟨hkind, others, hparts, -⟩ := Node.parameter?_eq_some hp
  have hbinds : Surroundings.bindsVariable
      (item :: .mk .parameters span items :: f.node :: f.around) = true := by
    rw [Surroundings.bindsVariable, hkind]
  obtain ⟨b, hb, hident, hscope⟩ := hintro.entersIn _ hbinds
  have hbelow : b ∈ sitesBelowAll (f.node :: f.around) signature := by
    have hbitem := Node.mem_sitesBelow_of_child (hparts List.mem_cons_self) hb
    have hblist := Node.mem_sitesBelow_of_child (n := .mk .parameters span items) hitem hbitem
    exact mem_sitesBelowAll_iff.mpr ⟨_, hlist, hblist⟩
  have howner : b.around.scope = f.node.span := by
    rw [hscope, Surroundings.scope_cons (by simp [Surroundings.isScope, hkind]),
      Surroundings.scope_cons rfl, Surroundings.scope, Surroundings.scopes,
      List.filter_cons_of_pos h.isScope]
    rfl
  rw [DerivedConditionalNaming.binds_iff]
  exact ⟨b, List.mem_append_right _ (List.mem_cons_of_mem _ (hfirst hbelow)), place, hident, howner⟩

end Site.InBody

namespace DerivedConditionalNaming
open DerivedStore

/-- In a scope without conditions of the name, what the walk knows of it is not pending. -/
lemma find?_walk_of_binds {sites before : List Site} {name : String} {scope : Span}
    (hbefore : before ⊆ sites) (hidle : Unconditional sites name scope)
    (hbinds : binds before name scope = true) :
    ∃ v, (walk before .empty).2.find? name scope = some v ∧ v.status ≠ .pending := by
  have hknown := (knows_walk_iff before name scope).mpr (written_of_binds hbinds)
  obtain ⟨⟨span, status⟩, hv⟩ := Option.ne_none_iff_exists'.mp hknown
  refine ⟨⟨span, status⟩, hv, ?_⟩
  rintro rfl
  have hhas : (walk before .empty).2.HasCondition name scope span := ⟨.pending, by simp, hv⟩
  rw [(sameView_walk before).hasCondition_iff, hasCondition_after_iff] at hhas
  obtain ⟨d, hd, hident, hscope⟩ := mem_writes_record_iff.mp (record_mem_of_holds hhas)
  exact hidle d (hbefore hd) _ hident rfl hscope

/-- A gate that finds a variable other than a pending condition under a name does as well without
reading that name. -/
lemma readGate_ignore {scopes : List Span} {scope : Span} {name : String} {v : Variable}
    (hv : v.status ≠ .pending) (names : List String) {store : DerivedStore}
    (hfirst : FirstWith (store.Knows name) scopes scope)
    (hfind : store.find? name scope = some v) :
    readGate scopes names store = readGate scopes (names.filter (· ≠ name)) store := by
  induction names generalizing store with
  | nil => rfl
  | cons other names ih =>
    by_cases hother : other = name
    · subst hother
      have hpass : store.consume other scopes = (.other, store) := by
        rcases consume_cases other scopes store with ⟨hnone, -⟩ | ⟨s, w, hs, hw, hcases⟩
        · exact absurd hfirst.holds (hnone scope hfirst.mem)
        obtain rfl := hs.unique hfirst
        obtain rfl := Option.some.inj (hw.symm.trans hfind)
        rcases hcases with ⟨hpending, -⟩ | ⟨-, heq⟩
        · exact absurd hpending hv
        · exact heq
      rw [List.filter_cons_of_neg (by simp), readGate, hpass]
      exact ih hfirst hfind
    · have hview := sameView_consume other scopes store
      have hfirst' : FirstWith ((store.consume other scopes).2.Knows name) scopes scope :=
        hview.knows_eq name ▸ hfirst
      have hfind' : (store.consume other scopes).2.find? name scope = some v := by
        rcases find?_consume other scopes store name scope with hsame | ⟨hname, -⟩
        · rw [hsame, hfind]
        · exact absurd hname hother
      rw [List.filter_cons_of_pos (by simp [hother]), readGate, readGate]
      generalize store.consume other scopes = r at hfirst' hfind' ⊢
      obtain ⟨answer, next⟩ := r
      cases answer with
      | derived span => simp only [ih hfirst' hfind']
      | other => exact ih hfirst' hfind'
      | unbound =>
        have hfind'' : (next.defer other scopes).find? name scope = some v := hfind'
        exact ih hfirst' hfind''

/-- What the rule finds in the sites `before`, `g` and `later` if the gate at `g` does not read
`name`. -/
def runIgnoring (name : String) (before : List Site) (g : Site) (later : List Site) :
    List Diagnostic :=
  let early := walk before .empty
  let found := readGate g.around.scopes ((gateNames g).filter (· ≠ name)) early.2
  let late := walk later found.2
  early.1 ++ found.1 ++ late.1 ++ (finish late.2).1

lemma walk_append (front back : List Site) (store : DerivedStore) :
    walk (front ++ back) store =
      ((walk front store).1 ++ (walk back (walk front store).2).1,
        (walk back (walk front store).2).2) := by
  induction front generalizing store with
  | nil => simp [walk]
  | cons site front ih => simp [walk, ih]

/-- Read through `scopes` after the sites `before`, the name stands for the condition at `span`,
found among all declarations if those sites have no variable of the name. -/
def Resolves (sites before : List Site) (name : String) (scopes : List Span) (span : Span) :
    Prop :=
  Reads (writes before) name scopes span ∨
    (∀ s ∈ scopes, ¬ Written (writes before) name s) ∧ Reads (writes sites) name scopes span

/-- A scope that has no variable of the name is passed over. -/
lemma resolves_cons_iff {root : Node} {before : List Site} (hbefore : before ⊆ root.sites)
    {name : String} {scope : Span} (hfree : binds root.sites name scope = false)
    (outer : List Span) (span : Span) :
    Resolves root.sites before name (scope :: outer) span ↔
      Resolves root.sites before name outer span := by
  have hall : ¬ Written (writes root.sites) name scope := by
    intro hwritten
    rw [binds_of_written hwritten] at hfree
    cases hfree
  have hpart : ¬ Written (writes before) name scope := fun h => hall (written_mono hbefore h)
  have hskip : ∀ {calls : List Call}, ¬ Written calls name scope →
      (Reads calls name (scope :: outer) span ↔ Reads calls name outer span) := by
    intro calls hcalls
    have hinner : ∀ s ∈ [scope], ¬ Written calls name s := by simpa using hcalls
    exact reads_append_iff hinner outer span
  rw [Resolves, Resolves, hskip hpart, hskip hall]
  simp only [List.mem_cons, forall_eq_or_imp, hpart, not_false_eq_true, true_and]

/-- A parameter of a function, in any form but a rest parameter, hides the name from the gates in
the body. Past a rest parameter a gate reads the condition outside. -/
theorem parameter_hides_unless_rest (c : Config) (hon : c.derivedConditionalNaming = true)
    (source : String) {root : Node} {before later : List Site} {g f : Site}
    {signature : List Node} {body : Node} {inner : Surroundings} {name : String}
    (hsplit : root.sites = before ++ g :: later) (hbody : g.InBody f signature body inner)
    (hreads : g.Reads name) :
    (Unconditional root.sites name f.node.span → HasParameter signature name →
      (c.lint source root).ofRule RuleId.derivedConditionalNaming.name =
        runIgnoring name before g later) ∧
    ((∀ b ∈ root.sites, b.node.kind = .binding name → b.around.scope = f.node.span →
        b.InRestParameter f) →
      ∀ span, Resolves root.sites before name f.around.scopes span →
        report name span ∈ (c.lint source root).ofRule RuleId.derivedConditionalNaming.name) := by
  have hbefore : before ⊆ root.sites := by
    rw [hsplit]
    exact List.subset_append_left _ _
  rw [ofRule_lint c hon]
  refine ⟨fun hidle hparameter => ?_, fun hrest span hresolves => ?_⟩
  · have hbinds := hbody.binds_before hsplit hparameter
    obtain ⟨v, hfind, hplain⟩ := find?_walk_of_binds hbefore hidle hbinds
    have hfirst : FirstWith ((walk before .empty).2.Knows name) g.around.scopes f.node.span := by
      rw [hbody.scopes_eq]
      exact firstWith_head _ (by simp [Knows, hfind])
    have hgate : visit g (walk before .empty).2 =
        readGate g.around.scopes ((gateNames g).filter (· ≠ name)) (walk before .empty).2 := by
      rw [visit_eq, write?_eq_none_of_reads hreads]
      exact readGate_ignore hplain _ hfirst hfind
    rw [run, hsplit, walk_append, walk, hgate, runIgnoring]
    simp only [List.append_assoc]
  · have hfree : binds root.sites name f.node.span = false := by
      rw [← Bool.not_eq_true, binds_iff]
      rintro ⟨b, hb, place, hident, hscope⟩
      have hnone := (hrest b hb (Site.kind_of_introduced? hident) hscope).introduced?_eq_none
        hbody.function
      rw [hnone] at hident
      cases hident
    rw [mem_run_iff]
    refine ⟨before, g, later, hsplit, name, span, rfl, hreads, ?_⟩
    rw [hbody.scopes_eq]
    exact (resolves_cons_iff hbefore hfree _ _).mpr hresolves

/-- Written `const a = !x`, then `const f = (...a) => a && <X />` with a rest parameter and
`const g = ({ b: [a] }) => a && <Y />` with a nested one. -/
def restAndNested : Node :=
  .mk .program ⟨0, 83⟩ [
    .mk (.other "VariableDeclaration") ⟨0, 13⟩ [
      .mk .declarator ⟨6, 12⟩ [
        .mk (.binding "a") ⟨6, 7⟩ [],
        .mk (.unary .not) ⟨10, 12⟩ [.mk (.identifier "x") ⟨11, 12⟩ []]]],
    .mk (.other "VariableDeclaration") ⟨14, 45⟩ [
      .mk .declarator ⟨20, 44⟩ [
        .mk (.binding "f") ⟨20, 21⟩ [],
        .mk .arrow ⟨24, 44⟩ [
          .mk .parameters ⟨24, 30⟩ [
            .mk (.other "FormalParameterRest") ⟨25, 29⟩ [
              .mk (.other "BindingRestElement") ⟨25, 29⟩ [.mk (.binding "a") ⟨28, 29⟩ []]]],
          .mk .functionBody ⟨34, 44⟩ [
            .mk (.other "ExpressionStatement") ⟨34, 44⟩ [
              .mk (.logical .and) ⟨34, 44⟩ [
                .mk (.identifier "a") ⟨34, 35⟩ [],
                .mk .element ⟨39, 44⟩ [
                  .mk .opening ⟨39, 44⟩ [.mk (.identifier "X") ⟨40, 41⟩ []]]]]]]]],
    .mk (.other "VariableDeclaration") ⟨46, 83⟩ [
      .mk .declarator ⟨52, 82⟩ [
        .mk (.binding "g") ⟨52, 53⟩ [],
        .mk .arrow ⟨56, 82⟩ [
          .mk .parameters ⟨56, 68⟩ [
            .mk .parameter ⟨57, 67⟩ [
              .mk (.other "ObjectPattern") ⟨57, 67⟩ [
                .mk (.other "BindingProperty") ⟨59, 65⟩ [
                  .mk (.word "b") ⟨59, 60⟩ [],
                  .mk (.other "ArrayPattern") ⟨62, 65⟩ [.mk (.binding "a") ⟨63, 64⟩ []]]]]],
          .mk .functionBody ⟨72, 82⟩ [
            .mk (.other "ExpressionStatement") ⟨72, 82⟩ [
              .mk (.logical .and) ⟨72, 82⟩ [
                .mk (.identifier "a") ⟨72, 73⟩ [],
                .mk .element ⟨77, 82⟩ [
                  .mk .opening ⟨77, 82⟩ [.mk (.identifier "Y") ⟨78, 79⟩ []]]]]]]]]]

/-- The rest parameter does not hide the condition outside, the nested one does. -/
theorem parameter_hides_unless_rest_restAndNested :
    report "a" ⟨6, 7⟩ ∈ (Config.allOn.lint "" restAndNested).ofRule
        RuleId.derivedConditionalNaming.name ∧
      (Config.allOn.lint "" restAndNested).ofRule RuleId.derivedConditionalNaming.name =
        runIgnoring "a" (restAndNested.sites.take 34) (restAndNested.sites.get ⟨34, by decide⟩)
          (restAndNested.sites.drop 35) := by
  have hsplit : ∀ i : Fin restAndNested.sites.length, restAndNested.sites =
      restAndNested.sites.take i ++ restAndNested.sites.get i :: restAndNested.sites.drop (i + 1) :=
    fun i => by simp
  have hreads : ∀ i : Fin restAndNested.sites.length, i.val = 16 ∨ i.val = 34 →
      "a" ∈ gateNames (restAndNested.sites.get i) := by decide
  constructor
  · have hbody : (restAndNested.sites.get ⟨16, by decide⟩).InBody
        (restAndNested.sites.get ⟨9, by decide⟩)
        [(restAndNested.sites.get ⟨10, by decide⟩).node]
        (restAndNested.sites.get ⟨14, by decide⟩).node
        [(restAndNested.sites.get ⟨15, by decide⟩).node] :=
      ⟨Or.inl rfl, rfl, rfl, by decide, rfl, by decide⟩
    have hplace : ∀ i : Fin restAndNested.sites.length,
        (restAndNested.sites.get i).node.kind = .binding "a" →
        (restAndNested.sites.get i).around.scope = ⟨24, 44⟩ → i.val = 13 := by decide
    refine (parameter_hides_unless_rest Config.allOn rfl "" (hsplit ⟨16, by decide⟩) hbody
      (mem_gateNames_iff.mp (hreads _ (Or.inl rfl)))).2 ?_ ⟨6, 7⟩ (Or.inl ?_)
    · intro b hb hkind hscope
      obtain ⟨i, rfl⟩ := List.mem_iff_get.mp hb
      obtain rfl : i = ⟨13, by decide⟩ := Fin.ext (hplace i hkind hscope)
      exact ⟨[_], _, _, rfl, by simp [Node.isTransparent], rfl, rfl⟩
    · have hfind : (walk (restAndNested.sites.take 16) .empty).2.find? "a" ⟨0, 83⟩ =
          some ⟨⟨6, 7⟩, .pending⟩ := rfl
      have hknown : (walk (restAndNested.sites.take 16) .empty).2.Knows "a" ⟨0, 83⟩ := by
        simp [Knows, hfind]
      exact (finds_walk_iff _ _ _ _).mp
        ⟨⟨0, 83⟩, firstWith_head [] hknown, .pending, by decide, hfind⟩
  · have hbody : (restAndNested.sites.get ⟨34, by decide⟩).InBody
        (restAndNested.sites.get ⟨24, by decide⟩)
        [(restAndNested.sites.get ⟨25, by decide⟩).node]
        (restAndNested.sites.get ⟨32, by decide⟩).node
        [(restAndNested.sites.get ⟨33, by decide⟩).node] :=
      ⟨Or.inl rfl, rfl, rfl, by decide, rfl, by decide⟩
    refine (parameter_hides_unless_rest Config.allOn rfl "" (hsplit ⟨34, by decide⟩) hbody
      (mem_gateNames_iff.mp (hreads _ (Or.inr rfl)))).1 (by decide) ?_
    refine ⟨_, _, List.mem_singleton_self _, _, List.mem_singleton_self _, _, ⟨63, 64⟩, rfl, ?_⟩
    exact .object List.mem_cons_self (.property (.array List.mem_cons_self .name))

end DerivedConditionalNaming

end JsxLint
