import JsxLint.Component.Basic
import JsxLint.Proofs.Sites
import JsxLint.Tree.Jsx

/-! What is read off a node stands in the tree below it. The parts of declarators, parameters,
calls and components are searched in several ways, but every search ends at a node of the tree it
began with, so each place that is found is the place of some node. -/
namespace JsxLint

namespace Node

/-- The second node is the first one or stands somewhere below it. -/
inductive Contains : Node → Node → Prop
  | self (n : Node) : Contains n n
  | inner {n part m : Node} (mem : part ∈ n.children) (h : Contains part m) : Contains n m

def HasSpan (n : Node) (span : Span) : Prop :=
  ∃ m, n.Contains m ∧ m.span = span

lemma Contains.trans {a b c : Node} (hab : a.Contains b) (hbc : b.Contains c) : a.Contains c := by
  induction hab with
  | self => exact hbc
  | inner mem _ ih => exact .inner mem (ih hbc)

lemma contains_of_mem {n part : Node} (h : part ∈ n.children) : n.Contains part :=
  .inner h (.self part)

lemma Contains.hasSpan {n m : Node} (h : n.Contains m) : n.HasSpan m.span :=
  ⟨m, h, rfl⟩

lemma HasSpan.of_contains {n m : Node} {span : Span} (h : n.Contains m) (hspan : m.HasSpan span) :
    n.HasSpan span := by
  obtain ⟨place, hplace, rfl⟩ := hspan
  exact (h.trans hplace).hasSpan

lemma HasSpan.of_mem {n part : Node} {span : Span} (h : part ∈ n.children)
    (hspan : part.HasSpan span) : n.HasSpan span :=
  .of_contains (contains_of_mem h) hspan

end Node

/-- What stands below a site of a tree stands at a site of the tree. -/
theorem exists_site_of_contains {root m : Node} {site : Site} (hsite : site ∈ root.sites)
    (h : site.node.Contains m) : ∃ place ∈ root.sites, place.node = m := by
  obtain ⟨node, around⟩ := site
  change node.Contains m at h
  induction h generalizing around with
  | self n => exact ⟨_, hsite, rfl⟩
  | @inner n part m mem _ ih =>
    have hpart : (⟨part, n :: around⟩ : Site) ∈ n.sitesBelow around :=
      Node.mem_sitesBelow_of_child mem (part.self_mem_sitesBelow (n :: around))
    exact ih (n :: around) (mem_sites_of_mem_sitesBelow hsite hpart)

namespace Node

lemma hasSpan_of_boundIdent? {p : Node} {ident : Ident} (h : p.boundIdent? = some ident) :
    p.HasSpan ident.span := by
  fun_induction boundIdent? p with
  | case1 name span cs =>
    obtain rfl := Option.some.inj h
    exact (Contains.self _).hasSpan
  | case2 s left rest ih => exact .of_mem (by simp) (ih h)
  | case3 => cases h

lemma mem_of_ascribedType? {n type : Node} (h : n.ascribedType? = some type) :
    type ∈ n.children := by
  unfold ascribedType? at h
  split at h
  · obtain rfl := Option.some.inj h
    simp
  · cases h

lemma contains_of_findSome?_ascribedType? {n type : Node} {parts : List Node}
    (hparts : parts ⊆ n.children) (h : parts.findSome? ascribedType? = some type) :
    n.Contains type := by
  obtain ⟨part, hpart, htype⟩ := List.exists_of_findSome?_eq_some h
  exact .inner (hparts hpart) (contains_of_mem (mem_of_ascribedType? htype))

/-- The parts of a declarator stand in it. -/
lemma contains_of_declarator? {n : Node} {d : Declarator} (h : n.declarator? = some d) :
    n.Contains d.pattern ∧ (∀ type, d.type? = some type → n.Contains type) ∧
      ∀ init, d.init? = some init → n.Contains init := by
  unfold declarator? at h
  split at h
  · rename_i s pattern rest
    obtain rfl := Option.some.inj h
    refine ⟨contains_of_mem (by simp), fun type htype => ?_, fun init hinit => ?_⟩
    · exact contains_of_findSome?_ascribedType? (List.subset_cons_self pattern rest) htype
    · exact contains_of_mem (List.mem_cons_of_mem _ (List.mem_of_find?_eq_some hinit))
  · cases h

/-- The parts of a parameter stand in it. -/
lemma contains_of_parameter? {n : Node} {p : Parameter} (h : n.parameter? = some p) :
    n.Contains p.pattern ∧ ∀ type, p.type? = some type → n.Contains type := by
  obtain ⟨-, rest, hparts, htype⟩ := parameter?_eq_some h
  refine ⟨contains_of_mem (hparts List.mem_cons_self), fun type hp => ?_⟩
  exact contains_of_findSome?_ascribedType?
    (fun part hpart => hparts (List.mem_cons_of_mem _ hpart)) (htype ▸ hp)

lemma hasSpan_of_declared {n : Node} {d : Declarator} {ident : Ident}
    (hd : n.declarator? = some d) (hident : d.ident? = some ident) : n.HasSpan ident.span :=
  .of_contains (contains_of_declarator? hd).1 (hasSpan_of_boundIdent? hident)

lemma hasSpan_of_key? {n : Node} {ident : Ident} (h : n.key? = some ident) :
    n.HasSpan ident.span := by
  unfold key? at h
  split at h
  · rename_i key rest hchildren
    have hspan : key.span = ident.span := by
      unfold keyIdent? at h
      split at h
      · rw [← Option.some.inj h, span_mk]
      · rw [← Option.some.inj h, span_mk]
      · cases h
    exact ⟨key, contains_of_mem (by rw [hchildren]; exact List.mem_cons_self), hspan⟩
  · cases h

lemma mem_children_of_mem_attributeItems {n attr : Node} (h : attr ∈ n.attributeItems) :
    attr ∈ n.children := by
  unfold attributeItems at h
  split at h
  · exact List.mem_cons_of_mem _ (List.mem_of_mem_filter h)
  · cases h

lemma mem_children_of_attributeValue? {attr value : Node}
    (h : attr.attributeValue? = some value) : value ∈ attr.children := by
  unfold attributeValue? at h
  split at h
  · obtain rfl := Option.some.inj h
    simp
  · cases h

/-- The function behind an initializer stands in one of the expressions searched. -/
lemma contains_of_firstFunction? {pending : List Node} {function : Node}
    (h : firstFunction? pending = some function) : ∃ e ∈ pending, e.Contains function := by
  fun_induction firstFunction? pending with
  | case1 => cases h
  | case2 w s e rest pending ih =>
    obtain ⟨found, hfound, hcontains⟩ := ih h
    rcases List.mem_cons.mp hfound with rfl | hfound
    · exact ⟨_, List.mem_cons_self, .inner (by simp) hcontains⟩
    · exact ⟨found, List.mem_cons_of_mem _ hfound, hcontains⟩
  | case3 s t e rest pending ih =>
    obtain ⟨found, hfound, hcontains⟩ := ih h
    rcases List.mem_cons.mp hfound with rfl | hfound
    · exact ⟨_, List.mem_cons_self, .inner (by simp) hcontains⟩
    · exact ⟨found, List.mem_cons_of_mem _ hfound, hcontains⟩
  | case4 s parts pending =>
    obtain rfl := Option.some.inj h
    exact ⟨_, List.mem_cons_self, .self _⟩
  | case5 form s parts pending =>
    obtain rfl := Option.some.inj h
    exact ⟨_, List.mem_cons_self, .self _⟩
  | case6 s callee rest pending ih =>
    obtain ⟨found, hfound, hcontains⟩ := ih h
    rcases List.mem_append.mp hfound with hfound | hfound
    · exact ⟨_, List.mem_cons_self, .inner (List.mem_cons_of_mem _ hfound) hcontains⟩
    · exact ⟨found, List.mem_cons_of_mem _ hfound, hcontains⟩
  | case7 other pending _ _ _ _ _ ih =>
    obtain ⟨found, hfound, hcontains⟩ := ih h
    exact ⟨found, List.mem_cons_of_mem _ hfound, hcontains⟩

lemma contains_of_functionIn? {e function : Node} (h : e.functionIn? = some function) :
    e.Contains function := by
  obtain ⟨found, hfound, hcontains⟩ := contains_of_firstFunction? h
  rwa [List.mem_singleton.mp hfound] at hcontains

lemma contains_of_mem_formals {function parameter : Node} (h : parameter ∈ function.formals) :
    function.Contains parameter := by
  obtain ⟨list, hlist, hparameter⟩ := List.mem_flatMap.mp h
  split at hparameter
  · exact .inner hlist (contains_of_mem (List.mem_of_mem_filter hparameter))
  · cases hparameter

lemma span_of_referencedProps? {source : String} {place : PropsPlace} {type : Node}
    {props : PropsType} (h : type.referencedProps? source place = some props) :
    type.span = props.span := by
  unfold referencedProps? at h
  split at h
  · rw [← Option.some.inj h, span_mk]
  · rw [← Option.some.inj h, span_mk]
  · cases h

end Node

mutual

theorem Node.contains_of_mem_nestedReferences :
    ∀ (type : Node) {reference : Node}, reference ∈ type.nestedReferences →
      type.Contains reference
  | .mk k s parts, reference, h => by
    unfold Node.nestedReferences at h
    split at h
    · rename_i name s' types rest heq
      obtain ⟨rfl, rfl, rfl⟩ := Node.mk.inj heq
      obtain ⟨inner, hinner, hcontains⟩ := contains_of_mem_nestedReferencesAll types h
      have harguments : (Node.mk .typeArguments s' types).Contains reference :=
        .inner hinner hcontains
      exact .inner (by simp) harguments
    · cases h

theorem contains_of_mem_nestedReferencesAll :
    ∀ (types : List Node) {reference : Node}, reference ∈ nestedReferencesAll types →
      ∃ type ∈ types, type.Contains reference
  | [], reference, h => by
    rw [nestedReferencesAll] at h
    cases h
  | type :: types, reference, h => by
    rw [nestedReferencesAll] at h
    rcases List.mem_append.mp h with h | h
    · rcases List.mem_append.mp h with h | h
      · obtain rfl := List.mem_singleton.mp (List.mem_ite_nil_right.mp h).2
        exact ⟨_, List.mem_cons_self, .self _⟩
      · exact ⟨type, List.mem_cons_self, type.contains_of_mem_nestedReferences h⟩
    · obtain ⟨found, hfound, hcontains⟩ := contains_of_mem_nestedReferencesAll types h
      exact ⟨found, List.mem_cons_of_mem _ hfound, hcontains⟩

end

mutual

theorem Node.contains_of_forwardRefCall? :
    ∀ (e : Node) {call : Node}, e.forwardRefCall? = some call → e.Contains call
  | .mk k s parts, call, h => by
    unfold Node.forwardRefCall? at h
    split at h
    · rename_i w s' e rest heq
      obtain ⟨rfl, rfl, rfl⟩ := Node.mk.inj heq
      exact .inner (by simp) (e.contains_of_forwardRefCall? h)
    · rename_i s' type e rest heq
      obtain ⟨rfl, rfl, rfl⟩ := Node.mk.inj heq
      exact .inner (by simp) (e.contains_of_forwardRefCall? h)
    · rename_i s' callee rest heq
      obtain ⟨rfl, rfl, rfl⟩ := Node.mk.inj heq
      split at h
      · obtain rfl := Option.some.inj h
        exact .self _
      · obtain ⟨found, hfound, hcontains⟩ := contains_of_firstForwardRefCall? rest h
        exact .inner (List.mem_cons_of_mem _ hfound) hcontains
    · cases h

theorem contains_of_firstForwardRefCall? :
    ∀ (es : List Node) {call : Node}, firstForwardRefCall? es = some call →
      ∃ e ∈ es, e.Contains call
  | [], call, h => by
    rw [firstForwardRefCall?] at h
    cases h
  | e :: es, call, h => by
    rw [firstForwardRefCall?] at h
    rcases Option.or_eq_some_iff.mp h with h | ⟨-, h⟩
    · exact ⟨e, List.mem_cons_self, e.contains_of_forwardRefCall? h⟩
    · obtain ⟨found, hfound, hcontains⟩ := contains_of_firstForwardRefCall? es h
      exact ⟨found, List.mem_cons_of_mem _ hfound, hcontains⟩

end

lemma Node.contains_of_mem_typeArguments {n type : Node} (h : type ∈ n.typeArguments) :
    n.Contains type := by
  unfold Node.typeArguments at h
  split at h
  · rename_i s callee s' types rest
    have harguments : (Node.mk .typeArguments s' types).Contains type := contains_of_mem h
    exact .inner (by simp) harguments
  · rename_i s name s' types rest
    have harguments : (Node.mk .typeArguments s' types).Contains type := contains_of_mem h
    exact .inner (by simp) harguments
  · cases h

namespace PropsType
variable {source : String} {props : PropsType}

lemma hasSpan_of_ofParameter? {parameter : Node} (h : ofParameter? source parameter = some props) :
    parameter.HasSpan props.span := by
  simp only [ofParameter?, Option.bind_eq_bind, Option.bind_eq_some_iff] at h
  obtain ⟨p, hp, type, htype, hprops⟩ := h
  exact ⟨type, (Node.contains_of_parameter? hp).2 type htype, Node.span_of_referencedProps? hprops⟩

lemma hasSpan_of_ofAscription? {type : Node} (h : ofAscription? source type = some props) :
    type.HasSpan props.span := by
  simp only [ofAscription?, Option.bind_eq_bind, Option.bind_eq_some_iff] at h
  obtain ⟨⟨name, span⟩, hshown, hprops⟩ := h
  obtain rfl := Option.some.inj hprops
  have hmem : (name, span) ∈
      type.nestedReferences.map fun r => (r.shownReference source, r.span) := by
    rcases Option.or_eq_some_iff.mp hshown with hshown | ⟨-, hshown⟩
    · exact List.mem_of_find?_eq_some hshown
    · exact List.mem_of_mem_head? hshown
  obtain ⟨reference, hreference, hpair⟩ := List.mem_map.mp hmem
  exact ⟨reference, type.contains_of_mem_nestedReferences hreference, (Prod.mk.inj hpair).2⟩

lemma hasSpan_of_ofForwardRef? {init : Node} (h : ofForwardRef? source init = some props) :
    init.HasSpan props.span := by
  simp only [ofForwardRef?, Option.bind_eq_bind, Option.bind_eq_some_iff] at h
  obtain ⟨call, hcall, type, htype, hprops⟩ := h
  have hcontains := (init.contains_of_forwardRefCall? hcall).trans
    (Node.contains_of_mem_typeArguments (List.mem_of_getElem? htype))
  exact ⟨type, hcontains, Node.span_of_referencedProps? hprops⟩

/-- The props type on the first parameter of a function stands in the function. -/
lemma hasSpan_of_formals {function : Node}
    (h : function.formals.head?.bind (ofParameter? source) = some props) :
    function.HasSpan props.span := by
  obtain ⟨parameter, hparameter, hprops⟩ := Option.bind_eq_some_iff.mp h
  exact .of_contains (Node.contains_of_mem_formals (List.mem_of_mem_head? hparameter))
    (hasSpan_of_ofParameter? hprops)

end PropsType

namespace Component
variable {source : String} {component : Component} {props : PropsType}

lemma hasSpan_of_ofFunction? {function : Node} (h : ofFunction? source function = some component)
    (hprops : component.props? = some props) : function.HasSpan props.span := by
  simp only [ofFunction?, Option.bind_eq_bind, Option.bind_eq_some_iff] at h
  obtain ⟨ident, -, hcomponent⟩ := h
  obtain rfl := Option.some.inj hcomponent
  exact PropsType.hasSpan_of_formals hprops

/-- In all three places where the props type of a variable can be written, it stands in the
declarator. -/
lemma hasSpan_of_ofDeclarator? {n : Node} {d : Declarator} (hd : n.declarator? = some d)
    (h : ofDeclarator? source d = some component) (hprops : component.props? = some props) :
    n.HasSpan props.span := by
  obtain ⟨-, htype, hinit⟩ := Node.contains_of_declarator? hd
  simp only [ofDeclarator?, Option.bind_eq_bind, Option.bind_eq_some_iff] at h
  obtain ⟨ident, -, init, hd_init, function, hfunction, hcomponent⟩ := h
  obtain rfl := Option.some.inj hcomponent
  rcases Option.or_eq_some_iff.mp hprops with hprops | ⟨-, hprops⟩
  · exact .of_contains ((hinit init hd_init).trans (Node.contains_of_functionIn? hfunction))
      (PropsType.hasSpan_of_formals hprops)
  rcases Option.or_eq_some_iff.mp hprops with hprops | ⟨-, hprops⟩
  · obtain ⟨type, hd_type, hprops⟩ := Option.bind_eq_some_iff.mp hprops
    exact .of_contains (htype type hd_type) (PropsType.hasSpan_of_ofAscription? hprops)
  · exact .of_contains (hinit init hd_init) (PropsType.hasSpan_of_ofForwardRef? hprops)

end Component

end JsxLint
