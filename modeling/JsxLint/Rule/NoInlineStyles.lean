import JsxLint.Diagnostic.Basic
import JsxLint.Rule.Id
import JsxLint.Text.Slice
import JsxLint.Tree.Jsx

/-! Rule `no-inline-styles`: styling belongs in a stylesheet or class, not in an attribute. -/
namespace JsxLint.NoInlineStyles

structure Options where
  /-- Attributes that count as inline styles. -/
  attributes : List String := ["style"]
  deriving DecidableEq, Repr

/-- The text of an attribute's value: the canonical text of an expression in braces, anything
else as written. Empty braces hold no value. -/
def valueText? (source : String) (attr : Node) : Option String := do
  let value ← attr.attributeValue?
  match value.kind, attr.kind with
  | .container, .jsxAttribute printed =>
    let _ ← value.containedExpression?
    return "\x7b" ++ (← printed) ++ "\x7d"
  | _, _ => return Text.slice source value.span

def template : String :=
  "Avoid inline styles: move `\x7b\x7battribute\x7d\x7d=\x7b\x7bvalue\x7d\x7d` " ++
    "into a stylesheet or class."

def report? (o : Options) (source : String) (attr : Node) : Option Diagnostic := do
  let name ← attr.attributeName?
  if o.attributes.contains name then
    let value ← valueText? source attr
    return Diagnostic.warning RuleId.noInlineStyles.name attr.span template
      |>.withData "attribute" name
      |>.withData "value" value
      |>.withHelp "Use a CSS class or a styled component instead."
  else none

def check (o : Options) (source : String) (site : Site) : List Diagnostic :=
  site.node.attributeItems.filterMap (report? o source)

end JsxLint.NoInlineStyles
