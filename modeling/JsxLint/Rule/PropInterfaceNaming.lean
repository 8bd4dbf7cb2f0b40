import JsxLint.Component.Basic
import JsxLint.Diagnostic.Basic
import JsxLint.Rule.Id

/-! Rule `prop-interface-naming`: the props type of a component is named after it. Function
expressions are checked through the variable they are assigned to. -/
namespace JsxLint.PropInterfaceNaming

def declared? (source : String) (site : Site) : Option Component :=
  match site.node.kind with
  | .declarator => site.node.declarator?.bind (Component.ofDeclarator? source)
  | .function form => if form.isDeclaration then Component.ofFunction? source site.node else none
  | _ => none

def template : String :=
  "Props type of `\x7b\x7bname\x7d\x7d` is `\x7b\x7bactual\x7d\x7d`; " ++
    "name it `\x7b\x7bexpected\x7d\x7d`."

/-- The diagnostic for a component whose props type has another name. -/
def report? (c : Component) : Option Diagnostic := do
  let props ← c.props?
  if c.kind = .component ∧ c.propsCompliant? = some false then
    return Diagnostic.warning RuleId.propInterfaceNaming.name props.span template
      |>.withData "name" c.ident.name
      |>.withData "actual" props.name
      |>.withData "expected" c.expectedProps
  else none

def check (source : String) (site : Site) : List Diagnostic :=
  ((declared? source site).bind report?).toList

end JsxLint.PropInterfaceNaming
