import JsxLint.Expression.Complexity
import JsxLint.Diagnostic.Basic
import JsxLint.Placement
import JsxLint.Rule.Id

/-! Rule `no-complex-jsx-conditions`: a complex condition gets a name before it is used in
JSX. -/
namespace JsxLint.NoComplexJsxConditions

def template : String :=
  "Complex condition in \x7b\x7bcontext\x7d\x7d. " ++
    "Extract it into a descriptively named variable."

def help : Violation → String
  | .tooManyOperators => "The condition chains more than two logical operators."
  | .logicalTernaryTest => "The ternary test combines values with logical operators."
  | .complexOperands =>
    "The chain mixes logical operators with calls, comparisons or deep member access."
  | .templateLiteral => "The condition builds a template literal."
  | .logicalAssignment => "The condition assigns with `||=`, `&&=` or `??=`."

def report? (site : Site) : Option Diagnostic := do
  let condition ← site.node.containedExpression?
  let placement ← Placement.of? site.around
  let violation ← condition.violation?
  return Diagnostic.warning RuleId.noComplexJsxConditions.name site.node.span template
    |>.withData "context" placement.describe
    |>.withHelp (help violation)

def check (site : Site) : List Diagnostic :=
  (report? site).toList

end JsxLint.NoComplexJsxConditions
