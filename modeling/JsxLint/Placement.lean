import JsxLint.Expression.Gate
import JsxLint.Tree.Jsx

/-! Where an expression container stands, and the conditions that gate JSX at a site. -/
namespace JsxLint

inductive Placement
  | prop (name element : String)
  | child (element : String)
  | fragmentChild
  deriving DecidableEq, Repr

namespace Placement

/-- The place given by the nearest attribute, element or fragment around; `none` where that has
no printable element name. -/
def of? : Surroundings → Option Placement
  | [] => none
  | n :: outer =>
    match n.kind with
    | .jsxAttribute _ => do
      let element ← outer.findSome? Node.openingName?
      return prop (← n.attributeName?) element
    | .element => n.elementName?.map child
    | .fragment => some fragmentChild
    | _ => of? outer

def describe : Placement → String
  | prop name element => "the `" ++ name ++ "` prop of <" ++ element ++ ">"
  | child element => "the children of <" ++ element ++ ">"
  | fragmentChild => "a fragment"

def prop? : Placement → Option String
  | prop name _ => some name
  | _ => none

end Placement

namespace Site

/-- The condition at a site that decides whether JSX is rendered: the left of `&&` before JSX,
the test of a ternary with JSX in a branch, the value of a gating prop. -/
def gate? (site : Site) : Option Node :=
  match site.node with
  | .mk (.logical .and) _ [left, right] => if right.containsJsx then some left else none
  | .mk .conditional _ [test, consequent, alternate] =>
    if consequent.containsJsx || alternate.containsJsx then some test else none
  | .mk .container s parts =>
    if ((Placement.of? site.around).bind Placement.prop?).any isGatingProp then
      (Node.mk .container s parts).containedExpression?
    else none
  | _ => none

end Site

end JsxLint
