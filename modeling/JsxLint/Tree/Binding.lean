import JsxLint.Tree.Node

/-! Names that a program introduces or fixes: the identifier of a pattern, the parts of a
declarator and of a parameter, the static key of a property. Destructuring patterns introduce
names too, but have no single identifier. -/
namespace JsxLint

structure Ident where
  name : String
  span : Span
  deriving DecidableEq, Repr

/-- One `pattern : type = initializer` of a variable declaration. -/
structure Declarator where
  pattern : Node
  type? : Option Node
  init? : Option Node
  deriving Repr

structure Parameter where
  pattern : Node
  type? : Option Node
  deriving Repr

namespace Node

/-- The one identifier that a pattern introduces, its default value apart. -/
def boundIdent? : Node → Option Ident
  | mk (.binding name) span _ => some ⟨name, span⟩
  | mk .defaultPattern _ (left :: _) => left.boundIdent?
  | _ => none

def isAscription : Node → Bool
  | mk .ascription _ _ => true
  | _ => false

def ascribedType? : Node → Option Node
  | mk .ascription _ (type :: _) => some type
  | _ => none

def declarator? : Node → Option Declarator
  | mk .declarator _ (pattern :: rest) =>
    some ⟨pattern, rest.findSome? ascribedType?, rest.find? (!·.isAscription)⟩
  | _ => none

def isDecorator : Node → Bool
  | mk .decorator _ _ => true
  | _ => false

def parameter? : Node → Option Parameter
  | mk .parameter _ parts =>
    match parts.dropWhile isDecorator with
    | pattern :: rest => some ⟨pattern, rest.findSome? ascribedType?⟩
    | [] => none
  | _ => none

/-- The static name of a key: a plain word or a string. Other keys have none. -/
def keyIdent? : Node → Option Ident
  | mk (.word name) span _ => some ⟨name, span⟩
  | mk (.stringLiteral value) span _ => some ⟨value, span⟩
  | _ => none

def key? (n : Node) : Option Ident :=
  match n.children with
  | key :: _ => key.keyIdent?
  | [] => none

def signatureType? : Node → Option Node
  | mk .propertySignature _ (_ :: rest) => rest.findSome? ascribedType?
  | _ => none

end Node

namespace Declarator

def ident? (d : Declarator) : Option Ident :=
  d.pattern.boundIdent?

end Declarator

namespace Parameter

def ident? (p : Parameter) : Option Ident :=
  p.pattern.boundIdent?

end Parameter

end JsxLint
