import JsxLint.Tree.Binding
import JsxLint.Tree.Peel

/-! Functions, and how to find the one behind an initializer such as
`memo(forwardRef((props, ref) => ...))`. -/
namespace JsxLint

/-- The first function met when the expressions in `pending` are worked off from the front. A
wrapper gives way to what it holds and a call to its arguments; anything else is dropped. -/
def firstFunction? : (pending : List Node) → Option Node
  | [] => none
  | .mk (.wrapper _) _ (e :: _) :: pending => firstFunction? (e :: pending)
  | .mk .typeAssertion _ (_ :: e :: _) :: pending => firstFunction? (e :: pending)
  | .mk .arrow s parts :: _ => some (.mk .arrow s parts)
  | .mk (.function form) s parts :: _ => some (.mk (.function form) s parts)
  | .mk .call _ (_ :: rest) :: pending => firstFunction? (rest ++ pending)
  | _ :: pending => firstFunction? pending
termination_by pending => sizeAll pending
decreasing_by
  · simp only [sizeAll_cons, Node.size_mk]; omega
  · simp only [sizeAll_cons, Node.size_mk]; omega
  · simp only [sizeAll_cons, sizeAll_append, Node.size_mk]; omega
  · rw [sizeAll_cons]; exact Nat.lt_add_of_pos_left (Node.size_pos _)

/-- The function that an expression stands for: the expression itself, or the leftmost function
to be found among the arguments of a call. -/
def Node.functionIn? (e : Node) : Option Node :=
  firstFunction? [e]

theorem firstFunction?_append (ms ns : List Node) :
    firstFunction? (ms ++ ns) = (firstFunction? ms).or (firstFunction? ns) := by
  fun_induction firstFunction? ms with
  | case1 => rfl
  | case2 form s e rest pending ih => simpa [firstFunction?] using ih
  | case3 s type e rest pending ih => simpa [firstFunction?] using ih
  | case4 s parts pending => simp [firstFunction?]
  | case5 form s parts pending => simp [firstFunction?]
  | case6 s callee rest pending ih => simpa [firstFunction?] using ih
  | case7 e pending hwrapper hassertion harrow hfunction hcall ih =>
    rw [List.cons_append, firstFunction?.eq_7 _ _ hwrapper hassertion harrow hfunction hcall, ih]

/-- Expressions are searched one after the other, each to its end. -/
theorem firstFunction?_eq_findSome? (es : List Node) :
    firstFunction? es = es.findSome? Node.functionIn? := by
  induction es with
  | nil => rw [firstFunction?, List.findSome?_nil]
  | cons e es ih =>
    rw [← List.singleton_append, firstFunction?_append, ih, List.singleton_append,
      List.findSome?_cons]
    cases h : e.functionIn? with
    | none => rw [← Node.functionIn?, h, Option.none_or]
    | some function => rw [← Node.functionIn?, h, Option.some_or]

namespace Node

theorem functionIn?_wrapper (form : Wrapper) (s : Span) (e : Node) (types : List Node) :
    (mk (.wrapper form) s (e :: types)).functionIn? = e.functionIn? := by
  rw [functionIn?, firstFunction?, functionIn?]

theorem functionIn?_typeAssertion (s : Span) (type e : Node) (rest : List Node) :
    (mk .typeAssertion s (type :: e :: rest)).functionIn? = e.functionIn? := by
  rw [functionIn?, firstFunction?, functionIn?]

theorem functionIn?_call (s : Span) (callee : Node) (rest : List Node) :
    (mk .call s (callee :: rest)).functionIn? = rest.findSome? functionIn? := by
  rw [functionIn?, firstFunction?, List.append_nil, firstFunction?_eq_findSome?]

/-- The node is a parameter; a rest parameter is not one. -/
def isParameter : Node → Bool
  | mk .parameter _ _ => true
  | _ => false

def formals (function : Node) : List Node :=
  function.children.flatMap fun
    | mk .parameters _ items => items.filter isParameter
    | _ => []

def functionIdent? : Node → Option Ident
  | mk (.function _) _ (mk (.binding name) span _ :: _) => some ⟨name, span⟩
  | _ => none

end Node

end JsxLint
