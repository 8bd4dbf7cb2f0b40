import JsxLint.Rule.DerivedConditionalNaming
import Mathlib.Data.List.Basic
import Mathlib.Tactic.Common

/-! What stands at the sites of a tree. A site is followed by the sites below it; the identifier
of a declarator is a variable of the same scope below it, so a tree has at least as many
variables as declarators with an identifier. Nothing is assumed of the form of a tree beyond
what its nodes are asked for. -/
namespace JsxLint

lemma sitesBelowAll_cons_split {around : Surroundings} {n : Node} {ns : List Node}
    {before after : List Site} {site : Site}
    (h : sitesBelowAll around (n :: ns) = before ++ site :: after) :
    (∃ rest, n.sitesBelow around = before ++ site :: rest ∧
      after = rest ++ sitesBelowAll around ns) ∨
    ∃ front, before = n.sitesBelow around ++ front ∧
      sitesBelowAll around ns = front ++ site :: after := by
  rw [sitesBelowAll] at h
  rcases List.append_eq_append_iff.mp h with ⟨front, hbefore, htail⟩ | ⟨back, hsites, htail⟩
  · exact Or.inr ⟨front, hbefore, htail⟩
  · cases back with
    | nil =>
      refine Or.inr ⟨[], ?_, htail.symm⟩
      rw [hsites]
      simp
    | cons s back =>
      obtain ⟨rfl, hafter⟩ := List.cons.inj htail
      exact Or.inl ⟨back, hsites, hafter⟩

mutual

/-- A site is followed by the sites below it. -/
theorem Node.sitesBelow_follow (around : Surroundings) :
    ∀ (n : Node) {before after : List Site} {site : Site},
      n.sitesBelow around = before ++ site :: after →
      ∃ rest, after = sitesBelowAll (site.node :: site.around) site.node.children ++ rest
  | .mk k s cs, before, after, site, h => by
    rw [Node.sitesBelow] at h
    cases before with
    | nil =>
      obtain ⟨rfl, rfl⟩ := List.cons.inj h
      exact ⟨[], by simp⟩
    | cons first before =>
      obtain ⟨-, h⟩ := List.cons.inj h
      exact sitesBelowAll_follow _ cs h

theorem sitesBelowAll_follow (around : Surroundings) :
    ∀ (ns : List Node) {before after : List Site} {site : Site},
      sitesBelowAll around ns = before ++ site :: after →
      ∃ rest, after = sitesBelowAll (site.node :: site.around) site.node.children ++ rest
  | [], before, after, site, h => by
    rw [sitesBelowAll] at h
    simp at h
  | n :: ns, before, after, site, h => by
    rcases sitesBelowAll_cons_split h with ⟨rest, hsites, rfl⟩ | ⟨front, -, hrest⟩
    · obtain ⟨more, rfl⟩ := n.sitesBelow_follow around hsites
      exact ⟨more ++ sitesBelowAll around ns, by rw [List.append_assoc]⟩
    · exact sitesBelowAll_follow around ns hrest

end

lemma Node.self_mem_sitesBelow (n : Node) (around : Surroundings) :
    ⟨n, around⟩ ∈ n.sitesBelow around := by
  cases n
  rw [Node.sitesBelow]
  exact List.mem_cons_self

lemma mem_sitesBelowAll_iff {around : Surroundings} {ns : List Node} {site : Site} :
    site ∈ sitesBelowAll around ns ↔ ∃ n ∈ ns, site ∈ n.sitesBelow around := by
  rw [sitesBelowAll_eq_flatMap, List.mem_flatMap]

lemma Node.mem_sitesBelow_of_child {n part : Node} {around : Surroundings} {site : Site}
    (hpart : part ∈ n.children) (hsite : site ∈ part.sitesBelow (n :: around)) :
    site ∈ n.sitesBelow around := by
  cases n
  rw [Node.sitesBelow]
  exact List.mem_cons_of_mem _ (mem_sitesBelowAll_iff.mpr ⟨part, hpart, hsite⟩)

mutual

theorem Node.around_of_mem_sitesBelow (around : Surroundings) :
    ∀ (n : Node) {site : Site}, site ∈ n.sitesBelow around →
      site = ⟨n, around⟩ ∨ ∃ inner, site.around = inner ++ n :: around
  | .mk k s cs, site, h => by
    rw [Node.sitesBelow] at h
    rcases List.mem_cons.mp h with rfl | h
    · exact Or.inl rfl
    · exact Or.inr (around_of_mem_sitesBelowAll _ cs h)

theorem around_of_mem_sitesBelowAll (around : Surroundings) :
    ∀ (ns : List Node) {site : Site}, site ∈ sitesBelowAll around ns →
      ∃ inner, site.around = inner ++ around
  | [], site, h => by
    rw [sitesBelowAll] at h
    simp at h
  | n :: ns, site, h => by
    rw [sitesBelowAll] at h
    rcases List.mem_append.mp h with h | h
    · rcases n.around_of_mem_sitesBelow around h with rfl | ⟨inner, hinner⟩
      · exact ⟨[], rfl⟩
      · exact ⟨inner ++ [n], by rw [hinner]; simp⟩
    · exact around_of_mem_sitesBelowAll around ns h

end

mutual

/-- The sites before a site end with those that its ancestor has before it: the ancestor itself
and the part of the ancestor's subtree that comes first. -/
theorem Node.sitesBelow_ancestor (around : Surroundings) :
    ∀ (n : Node) {before after : List Site} {site : Site} {path outer : Surroundings} {m : Node},
      n.sitesBelow around = before ++ site :: after → site.around = path ++ m :: outer →
      around.length ≤ outer.length →
      ∃ front part rest, before = front ++ ⟨m, outer⟩ :: part ∧
        sitesBelowAll (m :: outer) m.children = part ++ site :: rest
  | .mk k s cs, before, after, site, path, outer, m, h, hpath, hlength => by
    rw [Node.sitesBelow] at h
    cases before with
    | nil =>
      obtain ⟨rfl, -⟩ := List.cons.inj h
      have hlong := congrArg List.length hpath
      simp only [List.length_append, List.length_cons] at hlong
      omega
    | cons first before =>
      obtain ⟨rfl, hbelow⟩ := List.cons.inj h
      by_cases hhere : outer.length = around.length
      · have hmem : site ∈ sitesBelowAll (.mk k s cs :: around) cs := by
          rw [hbelow]
          simp
        obtain ⟨inner, hinner⟩ := around_of_mem_sitesBelowAll _ cs hmem
        obtain ⟨-, hsame⟩ := List.append_inj' (hpath.symm.trans hinner) (by simp [hhere])
        obtain ⟨rfl, rfl⟩ := List.cons.inj hsame
        exact ⟨[], before, after, rfl, hbelow⟩
      · obtain ⟨front, part, rest, rfl, hpart⟩ :=
          sitesBelowAll_ancestor _ cs hbelow hpath (by simp only [List.length_cons]; omega)
        exact ⟨_ :: front, part, rest, rfl, hpart⟩

theorem sitesBelowAll_ancestor (around : Surroundings) :
    ∀ (ns : List Node) {before after : List Site} {site : Site} {path outer : Surroundings}
      {m : Node}, sitesBelowAll around ns = before ++ site :: after →
      site.around = path ++ m :: outer → around.length ≤ outer.length →
      ∃ front part rest, before = front ++ ⟨m, outer⟩ :: part ∧
        sitesBelowAll (m :: outer) m.children = part ++ site :: rest
  | [], before, after, site, path, outer, m, h, _, _ => by
    rw [sitesBelowAll] at h
    simp at h
  | n :: ns, before, after, site, path, outer, m, h, hpath, hlength => by
    rcases sitesBelowAll_cons_split h with ⟨rest, hsites, -⟩ | ⟨tail, rfl, hrest⟩
    · exact n.sitesBelow_ancestor around hsites hpath hlength
    · obtain ⟨front, part, rest, rfl, hpart⟩ := sitesBelowAll_ancestor around ns hrest hpath hlength
      exact ⟨n.sitesBelow around ++ front, part, rest, by simp, hpart⟩

end

/-- What stands below a site of a tree stands in the tree. -/
lemma mem_sites_of_mem_sitesBelow {root : Node} {site below : Site} (hsite : site ∈ root.sites)
    (hbelow : below ∈ site.node.sitesBelow site.around) : below ∈ root.sites := by
  obtain ⟨before, after, hsplit⟩ := List.append_of_mem hsite
  obtain ⟨rest, hafter⟩ := root.sitesBelow_follow [] hsplit
  obtain ⟨⟨k, s, parts⟩, around⟩ := site
  rw [Node.sitesBelow] at hbelow
  rcases List.mem_cons.mp hbelow with hself | hbelow
  · exact hself ▸ hsite
  · rw [hsplit, hafter]
    simp [hbelow]

/-- Every node on the path to a site stands at a site, below the rest of the path. -/
lemma mem_sites_of_path {root m : Node} {site : Site} {inner outer : Surroundings}
    (hsite : site ∈ root.sites) (hpath : site.node :: site.around = inner ++ m :: outer) :
    ⟨m, outer⟩ ∈ root.sites := by
  cases inner with
  | nil =>
    obtain ⟨rfl, rfl⟩ := List.cons.inj hpath
    exact hsite
  | cons n inner =>
    obtain ⟨-, haround⟩ := List.cons.inj hpath
    obtain ⟨before, after, hsplit⟩ := List.append_of_mem hsite
    obtain ⟨front, part, -, hbefore, -⟩ :=
      root.sitesBelow_ancestor [] hsplit haround (Nat.zero_le _)
    rw [hsplit, hbefore]
    simp

/-- In a program every site but the root has an innermost function or program around it. -/
theorem exists_owner {root : Node} (hroot : root.kind = .program) {site : Site}
    (hsite : site ∈ root.sites) (hkind : site.node.kind ≠ .program) :
    ∃ owner, site.around.find? Surroundings.isScope = some owner := by
  rcases root.around_of_mem_sitesBelow [] hsite with rfl | ⟨inner, hinner⟩
  · exact absurd hroot hkind
  · rw [← Option.isSome_iff_exists, List.find?_isSome]
    exact ⟨root, by rw [hinner]; simp, by simp [Surroundings.isScope, hroot]⟩

lemma Surroundings.scope_of_find? {around : Surroundings} {owner : Node}
    (h : around.find? Surroundings.isScope = some owner) : around.scope = owner.span := by
  rw [Surroundings.scope, Surroundings.scopes, List.headD_eq_head?_getD, List.head?_map,
    List.head?_filter, h]
  rfl

lemma Surroundings.mem_scopes_iff {around : Surroundings} {span : Span} :
    span ∈ around.scopes ↔ ∃ n ∈ around, Surroundings.isScope n = true ∧ n.span = span := by
  simp [Surroundings.scopes, and_assoc]

namespace Site

def introduced? (site : Site) : Option Ident :=
  match site.node.kind with
  | .binding name => if site.around.bindsVariable then some ⟨name, site.node.span⟩ else none
  | _ => none

def declared? (site : Site) : Option Ident :=
  site.node.declarator?.bind Declarator.ident?

def condition? (site : Site) : Option Ident :=
  site.node.declarator?.bind DerivedConditionalNaming.candidate?

end Site

lemma Node.declarator?_eq_some {n : Node} {d : Declarator} (h : n.declarator? = some d) :
    n.kind = .declarator ∧ ∃ rest, n.children = d.pattern :: rest := by
  unfold Node.declarator? at h
  split at h
  · obtain rfl := Option.some.inj h
    exact ⟨rfl, _, rfl⟩
  · simp at h

lemma Node.parameter?_eq_some {n : Node} {p : Parameter} (h : n.parameter? = some p) :
    n.kind = .parameter ∧
      ∃ rest, p.pattern :: rest ⊆ n.children ∧ p.type? = rest.findSome? Node.ascribedType? := by
  unfold Node.parameter? at h
  split at h
  · split at h
    · rename_i hparts
      obtain rfl := Option.some.inj h
      refine ⟨rfl, _, ?_, rfl⟩
      rw [← hparts]
      exact List.dropWhile_subset _
    · simp at h
  · simp at h

/-- A condition is declared by a name without an underscore and an initializer that derives
it. -/
theorem Site.condition?_eq_some_iff {site : Site} {ident : Ident} :
    site.condition? = some ident ↔
      ∃ d init, site.node.declarator? = some d ∧ d.ident? = some ident ∧ d.init? = some init ∧
        Name.isUnderscored ident.name = false ∧ init.isDerivedCandidate ident.name = true := by
  simp only [Site.condition?, DerivedConditionalNaming.candidate?, Option.bind_eq_bind,
    Option.bind_eq_some_iff]
  constructor
  · rintro ⟨d, hd, i, hi, init, hinit, h⟩
    split at h
    · rename_i hc
      obtain rfl := Option.some.inj h
      simp only [Bool.and_eq_true, Bool.not_eq_true'] at hc
      exact ⟨d, init, hd, hi, hinit, hc⟩
    · simp at h
  · rintro ⟨d, init, hd, hi, hinit, hc⟩
    refine ⟨d, hd, ident, hi, init, hinit, ?_⟩
    simp [hc.1, hc.2]

lemma Site.declared?_of_condition? {site : Site} {ident : Ident}
    (h : site.condition? = some ident) : site.declared? = some ident := by
  obtain ⟨d, -, hd, hi, -⟩ := Site.condition?_eq_some_iff.mp h
  exact Option.bind_eq_some_iff.mpr ⟨d, hd, hi⟩

lemma Site.kind_of_declared? {site : Site} {ident : Ident} (h : site.declared? = some ident) :
    site.node.kind = .declarator := by
  obtain ⟨d, hd, -⟩ := Option.bind_eq_some_iff.mp h
  exact (Node.declarator?_eq_some hd).1

lemma Site.kind_of_introduced? {site : Site} {ident : Ident} (h : site.introduced? = some ident) :
    site.node.kind = .binding ident.name := by
  unfold Site.introduced? at h
  split at h
  · rename_i name hkind
    split at h
    · obtain rfl := Option.some.inj h
      exact hkind
    · simp at h
  · simp at h

/-- The pattern introduces the identifier, at any depth. Default values and computed keys introduce
nothing. -/
inductive Node.Introduces : Node → Ident → Prop
  | name {name : String} {span : Span} {parts : List Node} :
      Introduces (.mk (.binding name) span parts) ⟨name, span⟩
  | default {span : Span} {left : Node} {rest : List Node} {ident : Ident}
      (h : Introduces left ident) : Introduces (.mk .defaultPattern span (left :: rest)) ident
  | object {span : Span} {parts : List Node} {part : Node} {ident : Ident} (mem : part ∈ parts)
      (h : Introduces part ident) : Introduces (.mk (.other "ObjectPattern") span parts) ident
  | property {span : Span} {key value : Node} {rest : List Node} {ident : Ident}
      (h : Introduces value ident) :
      Introduces (.mk (.other "BindingProperty") span (key :: value :: rest)) ident
  | array {span : Span} {parts : List Node} {part : Node} {ident : Ident} (mem : part ∈ parts)
      (h : Introduces part ident) : Introduces (.mk (.other "ArrayPattern") span parts) ident
  | remainder {span : Span} {part : Node} {rest : List Node} {ident : Ident}
      (h : Introduces part ident) :
      Introduces (.mk (.other "BindingRestElement") span (part :: rest)) ident

/-- Parts of patterns and of parameter lists: they neither own variables nor tell what the names
below them are. -/
def Node.isTransparent (n : Node) : Bool :=
  match n.kind with
  | .defaultPattern | .parameters | .other _ => true
  | _ => false

lemma Node.kind_of_isTransparent {n : Node} (h : n.isTransparent = true) :
    n.kind = .defaultPattern ∨ n.kind = .parameters ∨ ∃ label, n.kind = .other label := by
  unfold Node.isTransparent at h
  split at h
  · exact Or.inl ‹_›
  · exact Or.inr (Or.inl ‹_›)
  · exact Or.inr (Or.inr ⟨_, ‹_›⟩)
  · cases h

lemma Surroundings.bindsVariable_cons {n : Node} (h : n.isTransparent = true)
    (around : Surroundings) : bindsVariable (n :: around) = around.bindsVariable := by
  rw [bindsVariable]
  rcases Node.kind_of_isTransparent h with hkind | hkind | ⟨label, hkind⟩ <;> rw [hkind]

lemma Surroundings.scope_cons {n : Node} (h : isScope n = false) (around : Surroundings) :
    scope (n :: around) = around.scope := by
  rw [scope, scopes, List.filter_cons_of_neg (by simp [h])]
  rfl

lemma Node.isScope_of_isTransparent {n : Node} (h : n.isTransparent = true) :
    Surroundings.isScope n = false := by
  rw [Surroundings.isScope]
  rcases Node.kind_of_isTransparent h with hkind | hkind | ⟨label, hkind⟩ <;> rw [hkind]

/-- Wherever names are variables, the identifier is introduced at a site of the tree, in the scope
there. -/
def Node.EntersIn (p : Node) (ident : Ident) : Prop :=
  ∀ around : Surroundings, around.bindsVariable = true →
    ∃ b ∈ p.sitesBelow around, b.introduced? = some ident ∧ b.around.scope = around.scope

lemma Node.EntersIn.of_child {n part : Node} {ident : Ident} (h : part.EntersIn ident)
    (htransparent : n.isTransparent = true) (hpart : part ∈ n.children) : n.EntersIn ident := by
  intro around hbinds
  rw [← Surroundings.bindsVariable_cons htransparent] at hbinds
  obtain ⟨b, hb, hident, hscope⟩ := h (n :: around) hbinds
  exact ⟨b, Node.mem_sitesBelow_of_child hpart hb, hident, hscope.trans
    (Surroundings.scope_cons (Node.isScope_of_isTransparent htransparent) around)⟩

/-- Every name in a pattern is entered, whatever the form of the pattern. -/
theorem Node.Introduces.entersIn {p : Node} {ident : Ident} (h : p.Introduces ident) :
    p.EntersIn ident := by
  induction h with
  | @name name span parts =>
    intro around hbinds
    refine ⟨⟨.mk (.binding name) span parts, around⟩, Node.self_mem_sitesBelow _ around, ?_, rfl⟩
    simp [Site.introduced?, hbinds]
  | default _ ih => exact ih.of_child rfl List.mem_cons_self
  | object mem _ ih => exact ih.of_child rfl mem
  | property _ ih => exact ih.of_child rfl (by simp)
  | array mem _ ih => exact ih.of_child rfl mem
  | remainder _ ih => exact ih.of_child rfl List.mem_cons_self

lemma Node.introduces_of_boundIdent? {p : Node} {ident : Ident} (h : p.boundIdent? = some ident) :
    p.Introduces ident := by
  fun_induction Node.boundIdent? p with
  | case1 name span parts =>
    obtain rfl := Option.some.inj h
    exact .name
  | case2 span left rest ih => exact .default (ih h)
  | case3 p => cases h

/-- After a declarator with an identifier comes that identifier, a variable of the same scope. -/
theorem exists_introduced_after {root : Node} {before after : List Site} {d : Site} {ident : Ident}
    (hsites : root.sites = before ++ d :: after) (hdecl : d.declared? = some ident) :
    ∃ b ∈ after, b.introduced? = some ident ∧ b.around.scope = d.around.scope := by
  obtain ⟨declarator, hd, hident⟩ := Option.bind_eq_some_iff.mp hdecl
  obtain ⟨hkind, parts, hparts⟩ := Node.declarator?_eq_some hd
  obtain ⟨rest, rfl⟩ := root.sitesBelow_follow [] hsites
  have hbinds : Surroundings.bindsVariable (d.node :: d.around) = true := by
    rw [Surroundings.bindsVariable, hkind]
  obtain ⟨b, hb, hvar, hscope⟩ := (Node.introduces_of_boundIdent? hident).entersIn _ hbinds
  refine ⟨b, ?_, hvar, hscope.trans (by simp [Surroundings.scope, Surroundings.scopes,
    Surroundings.isScope, hkind])⟩
  rw [hparts, sitesBelowAll]
  exact List.mem_append_left _ (List.mem_append_left _ hb)

lemma exists_introduced_of_mem {root : Node} {d : Site} {ident : Ident} (hd : d ∈ root.sites)
    (hdecl : d.declared? = some ident) :
    ∃ b ∈ root.sites, b.introduced? = some ident ∧ b.around.scope = d.around.scope := by
  obtain ⟨before, after, hsplit⟩ := List.append_of_mem hd
  obtain ⟨b, hb, hintro, hscope⟩ := exists_introduced_after hsplit hdecl
  exact ⟨b, by rw [hsplit]; simp [hb], hintro, hscope⟩

def declaredIdents (sites : List Site) : List Ident :=
  sites.filterMap Site.declared?

def introducedIdents (sites : List Site) : List Ident :=
  sites.filterMap Site.introduced?

def conditionIdents (sites : List Site) : List Ident :=
  sites.filterMap Site.condition?

lemma conditionIdents_sublist (sites : List Site) :
    (conditionIdents sites).Sublist (declaredIdents sites) := by
  induction sites with
  | nil => exact List.Sublist.refl _
  | cons site sites ih =>
    cases hc : site.condition? with
    | none =>
      rw [conditionIdents, List.filterMap_cons_none hc]
      exact ih.trans ((List.sublist_cons_self site sites).filterMap _)
    | some ident =>
      rw [conditionIdents, declaredIdents, List.filterMap_cons_some hc,
        List.filterMap_cons_some (Site.declared?_of_condition? hc)]
      exact ih.cons_cons ident

lemma declaredIdents_append (front back : List Site) :
    declaredIdents (front ++ back) = declaredIdents front ++ declaredIdents back :=
  List.filterMap_append

lemma introducedIdents_append (front back : List Site) :
    introducedIdents (front ++ back) = introducedIdents front ++ introducedIdents back :=
  List.filterMap_append

lemma Node.boundIdent?_cases {k : Kind} {s : Span} {cs : List Node} {ident : Ident}
    (h : (Node.mk k s cs).boundIdent? = some ident) :
    k = .binding ident.name ∧ s = ident.span ∨
      k = .defaultPattern ∧ ∃ left, cs.head? = some left ∧ left.boundIdent? = some ident := by
  unfold Node.boundIdent? at h
  split at h
  · rename_i heq
    obtain ⟨rfl, rfl, rfl⟩ := Node.mk.inj heq
    obtain rfl := Option.some.inj h
    exact Or.inl ⟨rfl, rfl⟩
  · rename_i left rest heq
    obtain ⟨rfl, rfl, rfl⟩ := Node.mk.inj heq
    exact Or.inr ⟨rfl, left, rfl, h⟩
  · simp at h

mutual

/-- A subtree introduces what its declarators declare; a pattern introduces its own identifier
besides, which is what the declarator around it needs. -/
theorem Node.declared_sublist (around : Surroundings) :
    ∀ n : Node, (declaredIdents (n.sitesBelow around)).Sublist
        (introducedIdents (n.sitesBelow around)) ∧
      ∀ ident, n.boundIdent? = some ident → around.bindsVariable = true →
        (ident :: declaredIdents (n.sitesBelow around)).Sublist
          (introducedIdents (n.sitesBelow around))
  | .mk k s cs => by
    have hbelow := declared_sublist_all (.mk k s cs :: around) cs
    rw [Node.sitesBelow]
    generalize sitesBelowAll (.mk k s cs :: around) cs = below at hbelow
    refine ⟨?_, ?_⟩
    · cases hd : Site.declared? ⟨.mk k s cs, around⟩ with
      | none =>
        rw [declaredIdents, List.filterMap_cons_none hd]
        exact hbelow.1.trans ((List.sublist_cons_self _ below).filterMap _)
      | some ident =>
        obtain ⟨d, hd', hident⟩ := Option.bind_eq_some_iff.mp hd
        obtain ⟨hkind, rest, hrest⟩ := Node.declarator?_eq_some hd'
        rw [declaredIdents, List.filterMap_cons_some hd]
        refine (hbelow.2 ident d.pattern ?_ hident ?_).trans
          ((List.sublist_cons_self _ below).filterMap _)
        · change cs = _ at hrest
          rw [hrest, List.head?_cons]
        · rw [Surroundings.bindsVariable, hkind]
    · intro ident hident hbinds
      rcases Node.boundIdent?_cases hident with ⟨rfl, rfl⟩ | ⟨rfl, left, hleft, hident⟩
      · have hnot : Site.declared? ⟨.mk (.binding ident.name) ident.span cs, around⟩ = none := rfl
        have hvar : Site.introduced? ⟨.mk (.binding ident.name) ident.span cs, around⟩ =
            some ident := by
          simp [Site.introduced?, hbinds]
        rw [declaredIdents, introducedIdents, List.filterMap_cons_none hnot,
          List.filterMap_cons_some hvar]
        exact hbelow.1.cons_cons ident
      · have hnot : Site.declared? ⟨.mk .defaultPattern s cs, around⟩ = none := rfl
        rw [declaredIdents, List.filterMap_cons_none hnot]
        refine (hbelow.2 ident left hleft hident ?_).trans
          ((List.sublist_cons_self _ below).filterMap _)
        rw [Surroundings.bindsVariable]
        exact hbinds

theorem declared_sublist_all (around : Surroundings) :
    ∀ ns : List Node, (declaredIdents (sitesBelowAll around ns)).Sublist
        (introducedIdents (sitesBelowAll around ns)) ∧
      ∀ ident first, ns.head? = some first → first.boundIdent? = some ident →
        around.bindsVariable = true →
        (ident :: declaredIdents (sitesBelowAll around ns)).Sublist
          (introducedIdents (sitesBelowAll around ns))
  | [] => by
    rw [sitesBelowAll]
    exact ⟨List.Sublist.refl _, fun _ _ h => by simp at h⟩
  | n :: ns => by
    have hfirst := n.declared_sublist around
    have hrest := declared_sublist_all around ns
    rw [sitesBelowAll, declaredIdents_append, introducedIdents_append]
    refine ⟨hfirst.1.append hrest.1, ?_⟩
    intro ident first hhead hident hbinds
    obtain rfl := Option.some.inj hhead
    exact (hfirst.2 ident hident hbinds).append hrest.1

end

/-- The derived conditions of a tree are variables of it, each introduced once. -/
theorem conditionIdents_sublist_introducedIdents (root : Node) :
    (conditionIdents root.sites).Sublist (introducedIdents root.sites) :=
  (conditionIdents_sublist root.sites).trans (root.declared_sublist []).1

end JsxLint
