import JsxLint.Tree.Node

/-! The forms of types that the conventions recognise. Types are read as written: an alias of
`boolean` is not a boolean type here. -/
namespace JsxLint

namespace Node

def isBooleanType : Node → Bool
  | mk .booleanType _ _ => true
  | _ => false

/-- The dotted name of a type, such as `React.FC`. -/
def dottedName : Node → String
  | mk (.identifier name) _ _ => name
  | mk .qualifiedName _ [left, mk (.word name) _ _] => left.dottedName ++ "." ++ name
  | _ => "this"

end Node

mutual

/-- The type is a function type, or a union with one among its members. -/
def Node.isFunctionType : Node → Bool
  | .mk .functionType _ _ => true
  | .mk .parenthesizedType _ (type :: _) => type.isFunctionType
  | .mk .unionType _ types => anyFunctionType types
  | _ => false

def anyFunctionType : List Node → Bool
  | [] => false
  | type :: types => type.isFunctionType || anyFunctionType types

end

end JsxLint
