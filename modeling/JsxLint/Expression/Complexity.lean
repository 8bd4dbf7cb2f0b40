import JsxLint.Tree.Call

/-! How complex a condition is when it is written inline in JSX. The measures look at the
operands of operators, at call arguments and at member objects; they do not enter functions,
callees or optional chains. -/
namespace JsxLint

mutual

/-- The expression and the sub-expressions it is computed from, wrappers taken off. Names of
members, type arguments and spread arguments are listed but not entered. -/
def Node.terms : Node → List Node
  | .mk (.wrapper _) _ (e :: _) => e.terms
  | .mk .typeAssertion _ (_ :: e :: _) => e.terms
  | .mk (.unary op) s operands => .mk (.unary op) s operands :: termsAll operands
  | .mk (.binary op) s operands => .mk (.binary op) s operands :: termsAll operands
  | .mk (.logical op) s operands => .mk (.logical op) s operands :: termsAll operands
  | .mk .conditional s operands => .mk .conditional s operands :: termsAll operands
  | .mk (.member access) s operands => .mk (.member access) s operands :: termsAll operands
  | .mk (.assignment op) s (target :: right) =>
    .mk (.assignment op) s (target :: right) :: termsAll right
  | .mk .call s (callee :: arguments) => .mk .call s (callee :: arguments) :: termsAll arguments
  | e => [e]

def termsAll : List Node → List Node
  | [] => []
  | e :: es => e.terms ++ termsAll es

end

namespace Node

/-- A logical operator stands here, alone or as part of an assignment. -/
def isLogicalOperator : Node → Bool
  | mk (.logical _) _ _ => true
  | mk (.assignment (.logical _)) _ _ => true
  | _ => false

def isLogicalAssignment : Node → Bool
  | mk (.assignment (.logical _)) _ _ => true
  | _ => false

def isTemplate : Node → Bool
  | mk .template _ _ => true
  | mk .taggedTemplate _ _ => true
  | _ => false

theorem isLogicalOperator_congr {e e' : Node} (h : e.kind = e'.kind) :
    e.isLogicalOperator = e'.isLogicalOperator := by
  obtain ⟨k, s, parts⟩ := e
  obtain ⟨k', s', parts'⟩ := e'
  cases h
  cases k with
  | assignment op => cases op <;> rfl
  | _ => rfl

theorem isLogicalAssignment_congr {e e' : Node} (h : e.kind = e'.kind) :
    e.isLogicalAssignment = e'.isLogicalAssignment := by
  obtain ⟨k, s, parts⟩ := e
  obtain ⟨k', s', parts'⟩ := e'
  cases h
  cases k with
  | assignment op => cases op <;> rfl
  | _ => rfl

theorem isTemplate_congr {e e' : Node} (h : e.kind = e'.kind) :
    e.isTemplate = e'.isTemplate := by
  obtain ⟨k, s, parts⟩ := e
  obtain ⟨k', s', parts'⟩ := e'
  cases h
  cases k <;> rfl

def logicalOperatorCount (e : Node) : Nat :=
  e.terms.countP isLogicalOperator

def hasTemplate (e : Node) : Bool :=
  e.terms.any isTemplate

def hasLogicalAssignment (e : Node) : Bool :=
  e.terms.any isLogicalAssignment

/-- How many members are reached one after the other: 0 for `a`, 2 for `a.b.c`. A call ends the
chain. -/
def memberDepth : Node → Nat
  | mk (.wrapper _) _ (e :: _) => e.memberDepth
  | mk .typeAssertion _ (_ :: e :: _) => e.memberDepth
  | mk (.member _) _ (object :: _) => object.memberDepth + 1
  | mk .chain _ [mk (.member _) _ (object :: _)] => object.memberDepth + 1
  | _ => 0

def isDeepMember (e : Node) : Bool :=
  decide (1 < e.memberDepth)

/-- The operand is hard to read beside others: a call with arguments, an operation or a deep
member. -/
def isComplexOperand : Node → Bool
  | mk (.wrapper _) _ (e :: _) => e.isComplexOperand
  | mk .typeAssertion _ (_ :: e :: _) => e.isComplexOperand
  | e@(mk .call _ _) => !e.arguments.isEmpty
  | mk .chain _ [e@(mk .call _ _)] => !e.arguments.isEmpty
  | mk (.binary _) _ _ => true
  | mk (.logical _) _ _ => true
  | mk (.unary _) _ (operand :: _) => operand.isComplexOperand
  | e => e.isDeepMember

/-- The operands of the chain of `op` at `e`, seen under the wrapped form `whole`. -/
def chainOperands (op : LogicalOp) (whole : Node) : Node → List Node
  | mk (.wrapper _) _ (e :: _) => chainOperands op whole e
  | mk .typeAssertion _ (_ :: e :: _) => chainOperands op whole e
  | mk (.logical inner) _ [left, right] =>
    if inner = op then chainOperands op left left ++ chainOperands op right right else [whole]
  | _ => [whole]

/-- The operands of the outermost logical operator, its own nested uses flattened and wrappers
kept: `a`, `b`, `c` for `a && (b && c)`. None for any other expression. -/
def logicalOperands (e : Node) : List Node :=
  match e.peel with
  | mk (.logical op) _ [left, right] => chainOperands op left left ++ chainOperands op right right
  | _ => []

def ternaryTest? (e : Node) : Option Node :=
  match e.peel with
  | mk .conditional _ (test :: _) => some test
  | _ => none

end Node

inductive Violation
  | tooManyOperators
  | logicalTernaryTest
  | complexOperands
  | templateLiteral
  | logicalAssignment
  deriving DecidableEq, Repr

/-- The first reason against writing the condition inline. Two operators are the most that is
allowed, and two only between simple operands. -/
def Node.violation? (e : Node) : Option Violation :=
  let count := e.logicalOperatorCount
  if e.hasLogicalAssignment then some .logicalAssignment
  else if 2 < count then some .tooManyOperators
  else if e.ternaryTest?.any fun test => decide (0 < test.logicalOperatorCount) then
    some .logicalTernaryTest
  else if decide (2 ≤ count) && e.logicalOperands.any Node.isComplexOperand then
    some .complexOperands
  else if decide (1 ≤ count) && e.hasTemplate then some .templateLiteral
  else none

end JsxLint
