import JsxLint.Name.Boolean
import JsxLint.Tree.Call

/-! Which expressions are boolean and which derive a condition from other values.

Three questions are kept apart: whether an expression is boolean at all, whether every value it
can hand back looks boolean (which also trusts names), and whether it combines or transforms
conditions. The last deserves a name of its own; passing one identifier on does not. -/
namespace JsxLint

namespace Node

/-- The expression is boolean by its outermost form; a ternary if either branch is. `??` hands
back its fallback untouched and is not counted. -/
def isBoolean : Node → Bool
  | mk (.wrapper _) _ (e :: _) => e.isBoolean
  | mk .typeAssertion _ (_ :: e :: _) => e.isBoolean
  | mk .booleanLiteral _ _ => true
  | mk (.unary op) _ _ => op = .not
  | mk (.binary op) _ _ => op.isComparison
  | mk (.logical op) _ _ => op ≠ .coalesce
  | mk .conditional _ [_, consequent, alternate] => consequent.isBoolean || alternate.isBoolean
  | _ => false

/-- Every value that the expression can hand back looks boolean. -/
def isLikelyBoolean : Node → Bool
  | mk (.wrapper _) _ (e :: _) => e.isLikelyBoolean
  | mk .typeAssertion _ (_ :: e :: _) => e.isLikelyBoolean
  | mk .booleanLiteral _ _ => true
  | mk (.identifier name) _ _ => Name.isBooleanLike name
  | mk (.unary op) _ _ => op = .not
  | mk (.binary op) _ _ => op.isComparison
  | mk (.logical op) _ [left, right] =>
    op ≠ .coalesce && left.isLikelyBoolean && right.isLikelyBoolean
  | mk .conditional _ [_, consequent, alternate] =>
    consequent.isLikelyBoolean && alternate.isLikelyBoolean
  | _ => false

def isTemplateText : Node → Bool
  | mk .templateText _ _ => true
  | _ => false

/-- The expression is a string written out: a literal, or a template without expressions. -/
def isPlainString (e : Node) : Bool :=
  match e.peel with
  | mk (.stringLiteral _) _ _ => true
  | mk .template _ parts => parts.all isTemplateText
  | _ => false

/-- The idiom `value || 'default'`, with the string on either side. -/
def isStringFallback (e : Node) : Bool :=
  match e.peel with
  | mk (.logical .or) _ [left, right] => left.isPlainString || right.isPlainString
  | _ => false

def isDerived (e : Node) : Bool :=
  !e.isStringFallback &&
    match e.peel with
    | mk (.logical _) _ [left, right] => left.isLikelyBoolean && right.isLikelyBoolean
    | mk (.unary op) _ _ => op = .not
    | mk (.binary op) _ _ => op.isComparison
    | mk .conditional _ [_, consequent, alternate] =>
      consequent.isLikelyBoolean && alternate.isLikelyBoolean
    | _ => false

def isCombiningLogical (e : Node) : Bool :=
  !e.isStringFallback &&
    match e.peel with
    | mk (.logical op) _ _ => op ≠ .coalesce
    | _ => false

/-- The expression is a boolean that a name should show: any boolean but a string fallback. -/
def isBooleanValue (e : Node) : Bool :=
  e.isBoolean && !e.isStringFallback

def isDerivedCandidate (name : String) (init : Node) : Bool :=
  init.isDerived || init.isCombiningLogical && Name.isBooleanLike name

end Node

end JsxLint
