import JsxLint.Component.Basic
import JsxLint.Proofs.OperandWrappers

/-! Components behind calls. A component such as `memo(observer(Panel))` is read off the function
that is handed to the calls around it, and its props type may also stand on the variable or on a
call of `forwardRef` further in. Calls that hand on their first argument change nothing of this, at
any depth. A call of `forwardRef` is left out: it brings type arguments of its own. -/
namespace JsxLint

namespace Node

/-- The second expression is the first one handed on through calls. Each call has it as its first
argument, is no call of `forwardRef` and takes no call as another argument; wrappers may stand
around every step. -/
inductive HandedOn (e : Node) : Node → Prop
  | self : HandedOn e e
  | wrapped {inner outer : Node} (h : HandedOn e inner) (wraps : inner.Wraps outer) :
    HandedOn e outer
  | called {inner callee : Node} {s : Span} {rest others : List Node} (h : HandedOn e inner)
    (name : callee.calleeName? ≠ some "forwardRef")
    (first : (mk .call s (callee :: rest)).arguments = inner :: others)
    (plain : ∀ other ∈ others, other.peel.isCall = false) :
    HandedOn e (mk .call s (callee :: rest))

/-- A search is not changed by leaving out expressions in which it finds nothing. -/
lemma findSome?_filter {β : Type} {f : Node → Option β} {p : Node → Bool}
    (hnone : ∀ e : Node, p e = false → f e = none) (es : List Node) :
    (es.filter p).findSome? f = es.findSome? f := by
  induction es with
  | nil => rfl
  | cons e es ih =>
    cases h : p e with
    | true =>
      rw [List.filter_cons_of_pos h, List.findSome?_cons, List.findSome?_cons, ih]
    | false =>
      rw [List.filter_cons_of_neg (by simp [h]), ih, List.findSome?_cons, hnone e h]

/-- A search that finds nothing in type arguments goes through the arguments of a call alone. -/
lemma findSome?_arguments {β : Type} {f : Node → Option β}
    (htypes : ∀ e : Node, e.isTypeArguments = true → f e = none) (s : Span) (callee : Node)
    (rest : List Node) :
    (mk .call s (callee :: rest)).arguments.findSome? f = rest.findSome? f :=
  findSome?_filter (fun e he => htypes e (by simpa using he)) rest

lemma functionIn?_of_isTypeArguments {e : Node} (h : e.isTypeArguments = true) :
    e.functionIn? = none := by
  obtain ⟨k, s, parts⟩ := e
  cases k <;> cases h
  simp [functionIn?, firstFunction?]

lemma forwardRefCall?_peel (e : Node) : e.peel.forwardRefCall? = e.forwardRefCall? :=
  read_peel (by simp [forwardRefCall?]) (by simp [forwardRefCall?]) e

/-- Only calls are, or hold, calls of `forwardRef`. -/
lemma forwardRefCall?_eq_none {e : Node} (h : e.peel.isCall = false) :
    e.forwardRefCall? = none := by
  fun_induction peel e with
  | case1 form s e types ih =>
    rw [forwardRefCall?]
    exact ih h
  | case2 s type e rest ih =>
    rw [forwardRefCall?]
    exact ih h
  | case3 e hwrapper hassertion =>
    unfold forwardRefCall?
    split
    · exact (hwrapper _ _ _ _ rfl).elim
    · exact (hassertion _ _ _ _ rfl).elim
    · cases h
    · rfl

lemma forwardRefCall?_of_isTypeArguments {e : Node} (h : e.isTypeArguments = true) :
    e.forwardRefCall? = none := by
  obtain ⟨k, s, parts⟩ := e
  cases k <;> cases h
  exact forwardRefCall?_eq_none rfl

lemma forwardRefCall?_call {callee : Node} (h : callee.calleeName? ≠ some "forwardRef") (s : Span)
    (rest : List Node) :
    (mk .call s (callee :: rest)).forwardRefCall? = rest.findSome? forwardRefCall? := by
  rw [forwardRefCall?, if_neg h, firstForwardRefCall?_eq_findSome?]

namespace HandedOn
variable {e outer : Node}

/-- The function that is handed on is found from the outside. -/
theorem functionIn?_eq_some {function : Node} (h : e.HandedOn outer)
    (hfunction : e.functionIn? = some function) : outer.functionIn? = some function := by
  induction h with
  | self => exact hfunction
  | wrapped _ wraps ih => rw [← functionIn?_peel, wraps.peel_eq, functionIn?_peel, ih]
  | @called inner callee s rest others _ _ first _ ih =>
    rw [functionIn?_call, ← findSome?_arguments (fun _ => functionIn?_of_isTypeArguments) s callee,
      first, List.findSome?_cons, ih]

/-- The calls that hand on an expression add no call of `forwardRef` to it. -/
theorem forwardRefCall?_eq (h : e.HandedOn outer) : outer.forwardRefCall? = e.forwardRefCall? := by
  induction h with
  | self => rfl
  | wrapped _ wraps ih => rw [← forwardRefCall?_peel, wraps.peel_eq, forwardRefCall?_peel, ih]
  | @called inner callee s rest others _ name first plain ih =>
    have hothers : others.findSome? forwardRefCall? = none := by
      rw [List.findSome?_eq_none_iff]
      exact fun other hother => forwardRefCall?_eq_none (plain other hother)
    rw [forwardRefCall?_call name,
      ← findSome?_arguments (fun _ => forwardRefCall?_of_isTypeArguments) s callee, first,
      List.findSome?_cons, ih, hothers]
    cases e.forwardRefCall? <;> rfl

end HandedOn

end Node

namespace Component

/-- A variable with one identifier and a function behind its initializer declares a component, whose
kind is that of its name. -/
lemma exists_ofDeclarator? (source : String) {d : Declarator} {ident : Ident} {init function : Node}
    (hident : d.ident? = some ident) (hinit : d.init? = some init)
    (hfunction : init.functionIn? = some function) :
    ∃ component, ofDeclarator? source d = some component ∧ component.ident = ident ∧
      component.kind = .ofName ident.name := by
  simp only [ofDeclarator?, hident, hinit, Option.bind_eq_bind, Option.bind_some, hfunction]
  exact ⟨_, rfl, rfl, rfl⟩

/-- Calls that hand on their first argument do not change the component that a variable declares,
props type and all. -/
theorem ofDeclarator?_handedOn (source : String) {d : Declarator} {ident : Ident}
    {init outer function : Node} (hident : d.ident? = some ident) (hinit : d.init? = some init)
    (hfunction : init.functionIn? = some function) (houter : init.HandedOn outer) :
    ∃ component, component.ident = ident ∧ ofDeclarator? source d = some component ∧
      ofDeclarator? source { d with init? := some outer } = some component := by
  obtain ⟨component, hcomponent, hname, -⟩ := exists_ofDeclarator? source hident hinit hfunction
  refine ⟨component, hname, hcomponent, ?_⟩
  have hprops : PropsType.ofForwardRef? source outer = PropsType.ofForwardRef? source init := by
    rw [PropsType.ofForwardRef?, houter.forwardRefCall?_eq, PropsType.ofForwardRef?]
  rw [← hcomponent]
  simp only [ofDeclarator?, Declarator.ident?, hinit, Option.bind_eq_bind, Option.bind_some,
    hfunction, houter.functionIn?_eq_some hfunction, hprops]

/-- From `const Panel = forwardRef<Element, PanelProps>(() => 1)` to the same variable with
`memo((observer<Store>(forwardRef<Element, PanelProps>(() => 1)))!, isSame)`. -/
theorem ofDeclarator?_handedOn_memo :
    let name := fun text => Node.mk (.identifier text) ⟨0, 0⟩ []
    let type := fun text => Node.mk .typeReference ⟨0, 0⟩ [name text]
    let types := fun (texts : List String) => Node.mk .typeArguments ⟨0, 0⟩ (texts.map type)
    let function := Node.mk .arrow ⟨0, 0⟩ [.mk .parameters ⟨0, 0⟩ [], .mk .functionBody ⟨0, 0⟩ []]
    let init := Node.mk .call ⟨0, 0⟩ [name "forwardRef", types ["Element", "PanelProps"], function]
    let observed := Node.mk .call ⟨0, 0⟩ [name "observer", types ["Store"], init]
    let parenthesized := Node.mk (.wrapper .parentheses) ⟨0, 0⟩ [observed]
    let wrapped := Node.mk (.wrapper .nonNull) ⟨0, 0⟩ [parenthesized]
    let outer := Node.mk .call ⟨0, 0⟩ [name "memo", wrapped, name "isSame"]
    let d : Declarator := ⟨.mk (.binding "Panel") ⟨6, 11⟩ [], none, some init⟩
    d.ident? = some ⟨"Panel", ⟨6, 11⟩⟩ ∧ init.functionIn? = some function ∧ init.HandedOn outer ∧
      ofDeclarator? "" { d with init? := some outer } =
        some ⟨⟨"Panel", ⟨6, 11⟩⟩, .component, some ⟨"PanelProps", ⟨0, 0⟩, .forwardRef⟩⟩ := by
  intro name type types function init observed parenthesized wrapped outer d
  have hfunction : init.functionIn? = some function := by
    simp [init, name, types, function, Node.functionIn?, firstFunction?]
  have hobserved : init.HandedOn observed := .called .self (by decide) rfl (by simp)
  have houter : init.HandedOn outer :=
    .called (.wrapped (.wrapped hobserved (.wrapper _ _ _)) (.wrapper _ _ _)) (by decide) rfl
      (by simp [name, Node.peel, Node.isCall])
  obtain ⟨component, -, hcomponent, hsame⟩ :=
    ofDeclarator?_handedOn "" (d := d) rfl rfl hfunction houter
  refine ⟨rfl, hfunction, houter, hsame.trans (hcomponent.symm.trans ?_)⟩
  simp only [ofDeclarator?, d, Declarator.ident?, Node.boundIdent?, Option.bind_eq_bind,
    Option.bind_some, hfunction]
  decide

end Component

end JsxLint
