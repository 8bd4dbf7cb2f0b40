import JsxLint.Tree.Node

/-! Names and parts of JSX elements. An element such as `<this>` has no printable name. -/
namespace JsxLint

namespace Node

/-- The dotted name of a member tag such as `Menu.Item`. -/
def memberTagName : Node → String
  | mk (.identifier name) _ _ => name
  | mk .jsxMember _ [object, mk (.jsxWord name) _ _] => object.memberTagName ++ "." ++ name
  | _ => "this"

def tagName? : Node → Option String
  | mk (.jsxWord name) _ _ => some name
  | mk (.identifier name) _ _ => some name
  | mk .namespacedName _ [mk (.jsxWord space) _ _, mk (.jsxWord name) _ _] =>
    some (space ++ ":" ++ name)
  | n@(mk .jsxMember _ _) => some n.memberTagName
  | _ => none

def openingName? : Node → Option String
  | mk .opening _ (name :: _) => name.tagName?
  | _ => none

def elementName? : Node → Option String
  | mk .element _ (opening :: _) => opening.openingName?
  | _ => none

/-- The name of an attribute, `class` or `xlink:href`. -/
def attributeName? : Node → Option String
  | mk (.jsxAttribute _) _ (name :: _) => name.tagName?
  | _ => none

def attributeValue? : Node → Option Node
  | mk (.jsxAttribute _) _ (_ :: value :: _) => some value
  | _ => none

def isAttributeItem : Node → Bool
  | mk (.jsxAttribute _) _ _ => true
  | mk .jsxSpread _ _ => true
  | _ => false

/-- The attributes of an opening tag in order, spread ones included. -/
def attributeItems : Node → List Node
  | mk .opening _ (_ :: rest) => rest.filter isAttributeItem
  | _ => []

def containedExpression? : Node → Option Node
  | mk .container _ (mk .emptyExpression _ _ :: _) => none
  | mk .container _ (e :: _) => some e
  | _ => none

def containsJsx (n : Node) : Bool :=
  n.hasKind fun
    | .element => true
    | .fragment => true
    | _ => false

end Node

end JsxLint
