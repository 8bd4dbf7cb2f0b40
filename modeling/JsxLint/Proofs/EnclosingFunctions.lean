import JsxLint.Proofs.Sites
import JsxLint.Proofs.WrappingCalls
import Mathlib.Data.List.Nodup

/-! The function around a node and the variable that holds it. The kind of the nearest function is
looked up along the ancestors of a node, while a component is read off its declarator by searching
the calls in the initializer. The two searches meet at one function, which they tell by its span: in
a tree whose functions have different spans they agree for every path through a declarator.
Functions with a name of their own are left out; they are known by that name. -/
namespace JsxLint

namespace Node

def isFunction (n : Node) : Bool :=
  match n.kind with
  | .function _ | .arrow => true
  | _ => false

def functionSpans (root : Node) : List Span :=
  (root.sites.filter (·.node.isFunction)).map (·.node.span)

/-- The node is a wrapper or a call, through which a function can be handed on. -/
def isPassage (n : Node) : Bool :=
  match n.kind with
  | .wrapper _ | .typeAssertion | .call => true
  | _ => false

/-- The function stands in the expression below nothing but wrappers and calls. -/
def HandsOn (e function : Node) : Prop :=
  ∃ path : Surroundings, (∀ n ∈ path, n.isPassage = true) ∧
    ∀ around : Surroundings, ⟨function, path ++ around⟩ ∈ e.sitesBelow around

lemma HandsOn.self (function : Node) : function.HandsOn function :=
  ⟨[], by simp, function.self_mem_sitesBelow⟩

lemma HandsOn.of_child {n part function : Node} (h : part.HandsOn function)
    (hpassage : n.isPassage = true) (hpart : part ∈ n.children) : n.HandsOn function := by
  obtain ⟨path, hpath, hsites⟩ := h
  refine ⟨path ++ [n], ?_, fun around => ?_⟩
  · intro m hm
    rcases List.mem_append.mp hm with hm | hm
    · exact hpath m hm
    · rwa [List.mem_singleton.mp hm]
  · have hbelow := hsites (n :: around)
    rw [List.append_assoc, List.singleton_append]
    exact mem_sitesBelow_of_child hpart hbelow

/-- The search for a function goes through wrappers and calls only, and it ends at a function. -/
theorem handsOn_of_functionIn? {e function : Node} (h : e.functionIn? = some function) :
    function.isFunction = true ∧ e.HandsOn function := by
  induction e using Node.induction with
  | node k s parts ih =>
    cases k
    case wrapper form =>
      rcases parts with _ | ⟨e, types⟩
      · simp [functionIn?, firstFunction?] at h
      · obtain ⟨hfunction, hhands⟩ := ih e (by simp) (functionIn?_wrapper form s e types ▸ h)
        exact ⟨hfunction, hhands.of_child rfl (by simp)⟩
    case typeAssertion =>
      rcases parts with _ | ⟨type, _ | ⟨e, rest⟩⟩
      · simp [functionIn?, firstFunction?] at h
      · simp [functionIn?, firstFunction?] at h
      · obtain ⟨hfunction, hhands⟩ := ih e (by simp) (functionIn?_typeAssertion s type e rest ▸ h)
        exact ⟨hfunction, hhands.of_child rfl (by simp)⟩
    case call =>
      rcases parts with _ | ⟨callee, rest⟩
      · simp [functionIn?, firstFunction?] at h
      · rw [functionIn?_call] at h
        obtain ⟨e, hmem, he⟩ := List.exists_of_findSome?_eq_some h
        obtain ⟨hfunction, hhands⟩ := ih e (List.mem_cons_of_mem callee hmem) he
        exact ⟨hfunction, hhands.of_child rfl (List.mem_cons_of_mem callee hmem)⟩
    case arrow | function =>
      obtain rfl : _ = function := by simpa [functionIn?, firstFunction?] using h
      exact ⟨rfl, .self _⟩
    all_goals simp [functionIn?, firstFunction?] at h

lemma mem_children_of_init? {n init : Node} {d : Declarator} (hd : n.declarator? = some d)
    (hinit : d.init? = some init) : init ∈ n.children := by
  unfold declarator? at hd
  split at hd
  · obtain rfl := Option.some.inj hd
    exact List.mem_cons_of_mem _ (List.mem_of_find?_eq_some hinit)
  · cases hd

/-- Functions of a tree with different spans are told apart by them, and so are their places. -/
lemma site_eq_of_span_eq {root : Node} (hspans : root.functionSpans.Nodup) {a b : Site}
    (ha : a ∈ root.sites) (hb : b ∈ root.sites) (hfa : a.node.isFunction = true)
    (hfb : b.node.isFunction = true) (hspan : a.node.span = b.node.span) : a = b :=
  List.inj_on_of_nodup_map hspans (List.mem_filter.mpr ⟨ha, hfa⟩) (List.mem_filter.mpr ⟨hb, hfb⟩)
    hspan

/-- The function that is found behind the initializer of a declarator stands at a site below it. -/
lemma exists_site_of_functionIn? {root n init function : Node} {d : Declarator}
    {outer : Surroundings} (hn : ⟨n, outer⟩ ∈ root.sites) (hd : n.declarator? = some d)
    (hinit : d.init? = some init) (hfunction : init.functionIn? = some function) :
    ∃ path : Surroundings, (∀ m ∈ path, m.isPassage = true) ∧
      ⟨function, path ++ n :: outer⟩ ∈ root.sites := by
  obtain ⟨-, path, hpath, hsites⟩ := handsOn_of_functionIn? hfunction
  refine ⟨path, hpath, mem_sites_of_mem_sitesBelow hn ?_⟩
  exact mem_sitesBelow_of_child (mem_children_of_init? hd hinit) (hsites (n :: outer))

end Node

namespace Surroundings
variable {inner between outer path : Surroundings} {n g : Node} {d : Declarator} {span : Span}

lemma assignedKind?_of_isPassage (h : ∀ n ∈ path, n.isPassage = true) (around : Surroundings) :
    assignedKind? span (path ++ around) = assignedKind? span around := by
  induction path with
  | nil => rfl
  | cons n path ih =>
    rw [← ih fun m hm => h m (List.mem_cons_of_mem n hm)]
    have hn := h n List.mem_cons_self
    obtain ⟨k, s, parts⟩ := n
    cases k <;> first | rfl | cases hn

/-- On the way to a declarator the search goes on or gives up. -/
lemma assignedKind?_append_cases
    (h : ∀ n ∈ between, n.isFunction = false ∧ n.kind ≠ .declarator) (around : Surroundings) :
    assignedKind? span (between ++ around) = none ∨
      assignedKind? span (between ++ around) = assignedKind? span around := by
  induction between with
  | nil => exact Or.inr rfl
  | cons n between ih =>
    obtain ⟨-, hdeclarator⟩ := h n List.mem_cons_self
    rw [List.cons_append, assignedKind?]
    split
    · exact absurd ‹_› hdeclarator
    · exact Or.inl rfl
    · exact Or.inl rfl
    · exact Or.inl rfl
    · exact Or.inl rfl
    · exact ih fun m hm => h m (List.mem_cons_of_mem n hm)

/-- At a declarator the search asks which function its initializer stands for. -/
lemma assignedKind?_declarator {init : Node} (hd : n.declarator? = some d)
    (hinit : d.init? = some init) :
    assignedKind? span (n :: outer) = init.functionIn?.bind fun function =>
      if function.span = span then d.ident?.map fun ident => .ofName ident.name else none := by
  simp only [assignedKind?, (Node.declarator?_eq_some hd).1, hd, hinit, Option.bind_eq_bind,
    Option.bind_some]
  cases d.ident? <;> rfl

lemma functionKind?_append (h : ∀ n ∈ inner, n.isFunction = false) (around : Surroundings) :
    functionKind? (inner ++ around) = functionKind? around := by
  induction inner with
  | nil => rfl
  | cons n inner ih =>
    rw [← ih fun m hm => h m (List.mem_cons_of_mem n hm)]
    have hn := h n List.mem_cons_self
    obtain ⟨k, s, parts⟩ := n
    cases k <;> first | rfl | cases hn

lemma functionKind?_anonymous (hg : g.isFunction = true) (hname : g.functionIdent? = none)
    (around : Surroundings) : functionKind? (g :: around) = assignedKind? g.span around := by
  obtain ⟨k, s, parts⟩ := g
  cases k <;> try cases hg
  case arrow => rfl
  case function form => rw [functionKind?, Node.kind_mk, hname]

end Surroundings

/-- A path of the tree, from a node outwards, on which `g` is the nearest function and anonymous,
and the declarator `n` comes before any other declarator or function further out. -/
structure Node.FunctionPath (root g n : Node) (inner between outer : Surroundings) : Prop where
  path : ∃ site ∈ root.sites, site.node :: site.around = inner ++ g :: (between ++ n :: outer)
  nearest : ∀ m ∈ inner, m.isFunction = false
  isFunction : g.isFunction = true
  anonymous : g.functionIdent? = none
  direct : ∀ m ∈ between, m.isFunction = false ∧ m.kind ≠ .declarator

namespace Node.FunctionPath
variable {root g n init : Node} {d : Declarator} {inner between outer : Surroundings}

lemma function_mem (h : root.FunctionPath g n inner between outer) :
    ⟨g, between ++ n :: outer⟩ ∈ root.sites := by
  obtain ⟨site, hsite, hpath⟩ := h.path
  exact mem_sites_of_path hsite hpath

lemma declarator_mem (h : root.FunctionPath g n inner between outer) :
    ⟨n, outer⟩ ∈ root.sites := by
  obtain ⟨site, hsite, hpath⟩ := h.path
  have hpath' : site.node :: site.around = (inner ++ g :: between) ++ n :: outer := by
    simpa using hpath
  exact mem_sites_of_path hsite hpath'

lemma functionKind?_eq (h : root.FunctionPath g n inner between outer) :
    Surroundings.functionKind? (inner ++ g :: (between ++ n :: outer)) =
      Surroundings.assignedKind? g.span (between ++ n :: outer) := by
  rw [Surroundings.functionKind?_append h.nearest,
    Surroundings.functionKind?_anonymous h.isFunction h.anonymous]

/-- The kind found along the path is that of the variable if the initializer stands for the
function. -/
theorem functionKind?_of_functionIn? (h : root.FunctionPath g n inner between outer)
    (hspans : root.functionSpans.Nodup) (hd : n.declarator? = some d)
    (hinit : d.init? = some init) (hfunction : init.functionIn? = some g) :
    Surroundings.functionKind? (inner ++ g :: (between ++ n :: outer)) =
      d.ident?.map fun ident => .ofName ident.name := by
  obtain ⟨path, hpassage, hfound⟩ :=
    exists_site_of_functionIn? h.declarator_mem hd hinit hfunction
  have hsame := site_eq_of_span_eq hspans h.function_mem hfound h.isFunction h.isFunction rfl
  have hbetween : between = path := List.append_cancel_right (Site.mk.inj hsame).2
  rw [h.functionKind?_eq, hbetween, Surroundings.assignedKind?_of_isPassage hpassage,
    Surroundings.assignedKind?_declarator hd hinit, hfunction, Option.bind_some, if_pos rfl]

/-- No kind is found if the initializer stands for another function, or for none. -/
theorem functionKind?_of_functionIn?_ne (h : root.FunctionPath g n inner between outer)
    (hspans : root.functionSpans.Nodup) (hd : n.declarator? = some d)
    (hinit : d.init? = some init) (hfunction : init.functionIn? ≠ some g) :
    Surroundings.functionKind? (inner ++ g :: (between ++ n :: outer)) = none := by
  have hother : ∀ function, init.functionIn? = some function → function.span ≠ g.span := by
    intro function hfound hspan
    obtain ⟨path, -, hmem⟩ := exists_site_of_functionIn? h.declarator_mem hd hinit hfound
    have hsame := site_eq_of_span_eq hspans hmem h.function_mem
      (handsOn_of_functionIn? hfound).1 h.isFunction hspan
    exact hfunction (hfound.trans (congrArg some (Site.mk.inj hsame).1))
  have hdeclarator : Surroundings.assignedKind? g.span (n :: outer) = none := by
    rw [Surroundings.assignedKind?_declarator hd hinit]
    cases hfound : init.functionIn? with
    | none => rfl
    | some function => rw [Option.bind_some, if_neg (hother function hfound)]
  rw [h.functionKind?_eq]
  rcases Surroundings.assignedKind?_append_cases h.direct (n :: outer) with hnone | hreaches
  · exact hnone
  · rw [hreaches, hdeclarator]

end Node.FunctionPath

/-- On a path through a declarator to an anonymous function, the kind found is that of the declared
component if the initializer stands for this function, and none otherwise. -/
theorem functionKind?_agrees_with_component (source : String) {root g n init : Node}
    {d : Declarator} {inner between outer : Surroundings} (hspans : root.functionSpans.Nodup)
    (hpath : root.FunctionPath g n inner between outer) (hd : n.declarator? = some d)
    (hinit : d.init? = some init) :
    let kind? := Surroundings.functionKind? (inner ++ g :: (between ++ n :: outer))
    (init.functionIn? = some g →
      (∀ ident, d.ident? = some ident →
        ∃ component, Component.ofDeclarator? source d = some component ∧
          kind? = some component.kind) ∧
      (d.ident? = none → kind? = none)) ∧
    (init.functionIn? ≠ some g → kind? = none) := by
  intro kind?
  have hassigned : init.functionIn? = some g →
      kind? = d.ident?.map fun ident => .ofName ident.name :=
    hpath.functionKind?_of_functionIn? hspans hd hinit
  refine ⟨fun hfunction => ⟨fun ident hident => ?_, fun hident => ?_⟩,
    hpath.functionKind?_of_functionIn?_ne hspans hd hinit⟩
  · obtain ⟨component, hcomponent, -, hkind⟩ :=
      Component.exists_ofDeclarator? source hident hinit hfunction
    refine ⟨component, hcomponent, ?_⟩
    rw [hassigned hfunction, hident, hkind, Option.map_some]
  · rw [hassigned hfunction, hident, Option.map_none]

/-- In `const Panel = memo((() => a)!, () => b)` the node `a` is in a component and `b` is not. -/
theorem functionKind?_agrees_with_component_twoArguments :
    let name := fun text start => Node.mk (.identifier text) ⟨start, start + 1⟩ []
    let body := fun text start => Node.mk .functionBody ⟨start, start + 1⟩ [name text start]
    let arrow := fun text start => Node.mk .arrow ⟨start, start + 7⟩
      [.mk .parameters ⟨start, start + 2⟩ [], body text (start + 6)]
    let parenthesized := Node.mk (.wrapper .parentheses) ⟨19, 28⟩ [arrow "a" 20]
    let nonNull := Node.mk (.wrapper .nonNull) ⟨19, 29⟩ [parenthesized]
    let call := Node.mk .call ⟨14, 39⟩ [name "memo" 14, nonNull, arrow "b" 31]
    let panel := Node.mk .declarator ⟨6, 39⟩ [.mk (.binding "Panel") ⟨6, 11⟩ [], call]
    let root := Node.mk .program ⟨0, 39⟩ [panel]
    root.functionSpans.Nodup ∧
      root.FunctionPath (arrow "a" 20) panel [name "a" 26, body "a" 26]
        [parenthesized, nonNull, call] [root] ∧
      root.FunctionPath (arrow "b" 31) panel [name "b" 37, body "b" 37] [call] [root] ∧
      call.functionIn? = some (arrow "a" 20) ∧
      Surroundings.functionKind? [name "a" 26, body "a" 26, arrow "a" 20, parenthesized, nonNull,
        call, panel, root] = some .component ∧
      Surroundings.functionKind? [name "b" 37, body "b" 37, arrow "b" 31, call, panel, root] =
        none := by
  intro name body arrow parenthesized nonNull call panel root
  have hspans : root.functionSpans.Nodup := by decide
  have hfunction : call.functionIn? = some (arrow "a" 20) := by
    simp [call, nonNull, parenthesized, arrow, name, Node.functionIn?, firstFunction?]
  have hother : call.functionIn? ≠ some (arrow "b" 31) := by
    rw [hfunction]
    simp [arrow]
  have hfirst : root.FunctionPath (arrow "a" 20) panel [name "a" 26, body "a" 26]
      [parenthesized, nonNull, call] [root] :=
    ⟨⟨⟨name "a" 26, _⟩, by
      simp [root, panel, call, nonNull, parenthesized, arrow, body, name, Node.sites,
        Node.sitesBelow, sitesBelowAll], rfl⟩, by decide, rfl, rfl, by decide⟩
  have hsecond : root.FunctionPath (arrow "b" 31) panel [name "b" 37, body "b" 37] [call] [root] :=
    ⟨⟨⟨name "b" 37, _⟩, by
      simp [root, panel, call, nonNull, parenthesized, arrow, body, name, Node.sites,
        Node.sitesBelow, sitesBelowAll], rfl⟩, by decide, rfl, rfl, by decide⟩
  obtain ⟨component, hcomponent, hkind⟩ :=
    ((functionKind?_agrees_with_component "" hspans hfirst rfl rfl).1 hfunction).1 _ rfl
  have hpanel : component.kind = .component := by
    obtain ⟨_, hcomponent', -, hname⟩ := Component.exists_ofDeclarator? ""
      (d := ⟨.mk (.binding "Panel") ⟨6, 11⟩ [], none, some call⟩) rfl rfl hfunction
    obtain rfl := Option.some.inj (hcomponent'.symm.trans hcomponent)
    exact hname.trans (by decide)
  exact ⟨hspans, hfirst, hsecond, hfunction, hkind.trans (congrArg some hpanel),
    (functionKind?_agrees_with_component "" hspans hsecond rfl rfl).2 hother⟩

end JsxLint
