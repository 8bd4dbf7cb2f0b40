import JsxLint.Tree.Peel

/-! Conditions that decide whether JSX is rendered. -/
namespace JsxLint

/-- Props that gate the rendering of their element: `<Show when={...}>`. -/
def gatingProps : List String :=
  ["condition", "when", "if"]

def isGatingProp (name : String) : Bool :=
  gatingProps.contains name

/-- The identifiers that a condition is made of: `a`, `b` for `a && !b`. -/
def Node.gatingNames : Node → List String
  | .mk (.wrapper _) _ (e :: _) => e.gatingNames
  | .mk .typeAssertion _ (_ :: e :: _) => e.gatingNames
  | .mk (.identifier name) _ _ => [name]
  | .mk (.logical op) _ [left, right] =>
    if op = .coalesce then [] else left.gatingNames ++ right.gatingNames
  | .mk (.unary op) _ (operand :: _) => if op = .not then operand.gatingNames else []
  | _ => []

end JsxLint
