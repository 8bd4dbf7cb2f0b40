import JsxLint.Tree.Peel

/-! Calls: what is called and with which arguments. -/
namespace JsxLint.Node

def isTypeArguments : Node → Bool
  | mk .typeArguments _ _ => true
  | _ => false

/-- The arguments of a call, spread ones included. -/
def arguments : Node → List Node
  | mk .call _ (_ :: rest) => rest.filter (!·.isTypeArguments)
  | _ => []

def typeArguments : Node → List Node
  | mk .call _ (_ :: mk .typeArguments _ types :: _) => types
  | mk .typeReference _ (_ :: mk .typeArguments _ types :: _) => types
  | _ => []

/-- The member name in `o.name`, looking through wrappers. -/
def memberName? (callee : Node) : Option String :=
  match callee.peel with
  | mk (.member .named) _ [_, mk (.word name) _ _] => some name
  | _ => none

/-- The plain or last member name of what is called: `memo`, or `forwardRef` for
`React.forwardRef`. -/
def calleeName? (callee : Node) : Option String :=
  match callee.peel with
  | mk (.identifier name) _ _ => some name
  | mk (.member .named) _ [_, mk (.word name) _ _] => some name
  | _ => none

end JsxLint.Node
