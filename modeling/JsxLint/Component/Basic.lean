import JsxLint.Component.Function
import JsxLint.Component.Props

/-! Components and hooks: function-like declarations with a name, a kind and, where it can be
named, the type of their props. -/
namespace JsxLint

/-- A named function-like declaration. -/
structure Component where
  ident : Ident
  kind : Name.DeclarationKind
  props? : Option PropsType
  deriving DecidableEq, Repr

namespace Component

def ofFunction? (source : String) (function : Node) : Option Component := do
  let ident ← function.functionIdent?
  return {
    ident
    kind := .ofName ident.name
    props? := function.formals.head?.bind (PropsType.ofParameter? source) }

/-- The component that a variable declares through the function behind its initializer. -/
def ofDeclarator? (source : String) (declarator : Declarator) : Option Component := do
  let ident ← declarator.ident?
  let init ← declarator.init?
  let function ← init.functionIn?
  return {
    ident
    kind := .ofName ident.name
    props? :=
      (function.formals.head?.bind (PropsType.ofParameter? source)).or
        ((declarator.type?.bind (PropsType.ofAscription? source)).or
          (PropsType.ofForwardRef? source init)) }

def expectedProps (c : Component) : String :=
  Name.expectedProps c.ident.name

/-- The props type has one of the accepted names; `none` if no props type is named. -/
def propsCompliant? (c : Component) : Option Bool :=
  c.props?.map fun props => (Name.acceptedProps c.ident.name).contains props.name

end Component

end JsxLint
