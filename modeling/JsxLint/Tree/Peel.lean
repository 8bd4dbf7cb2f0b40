import JsxLint.Tree.Node

/-! Looking through parentheses and type-only wrappers. `(a as boolean)`, `a!` and
`<boolean>a` all stand for `a`; an optional chain is not looked through. -/
namespace JsxLint.Node

/-- The expression under all wrappers. -/
def peel : Node → Node
  | mk (.wrapper _) _ (e :: _) => e.peel
  | mk .typeAssertion _ (_ :: e :: _) => e.peel
  | e => e

@[simp] theorem peel_wrapper (w : Wrapper) (s : Span) (e : Node) (rest : List Node) :
    (mk (.wrapper w) s (e :: rest)).peel = e.peel := by
  rw [peel]

@[simp] theorem peel_typeAssertion (s : Span) (t e : Node) (rest : List Node) :
    (mk .typeAssertion s (t :: e :: rest)).peel = e.peel := by
  rw [peel]

theorem peel_peel (e : Node) : e.peel.peel = e.peel := by
  fun_induction peel e with
  | case1 w s e rest ih => exact ih
  | case2 s t e rest ih => exact ih
  | case3 e h₁ h₂ => rw [peel.eq_3 e h₁ h₂]

end JsxLint.Node
