import JsxLint.Tree.Operator

/-! What a node of a parsed source file is. Only the kinds that some convention looks at are told
apart; every other kind keeps its label. The comments give the parts of a node in order, with
`?` after a part that may be missing and `*` after one that repeats. -/
namespace JsxLint

/-- Spellings that leave the value of their expression alone. -/
inductive Wrapper
  /-- Written `(e)`. -/
  | parentheses
  /-- Written `e as T`. -/
  | asType
  /-- Written `e satisfies T`. -/
  | satisfiesType
  /-- Written `e!`. -/
  | nonNull
  deriving DecidableEq, Repr

inductive Access
  /-- Written `o.name`. -/
  | named
  /-- Written `o[e]`. -/
  | computed
  /-- Written `o.#name`. -/
  | hidden
  deriving DecidableEq, Repr

inductive FunctionForm
  | declaration
  | expression
  /-- A declaration without a body, in an ambient or overloaded position. -/
  | ambient
  /-- A method without a body. -/
  | bodiless
  deriving DecidableEq, Repr

/-- The form stands as a statement of its own. -/
def FunctionForm.isDeclaration : FunctionForm → Bool
  | declaration | ambient => true
  | expression | bodiless => false

inductive PropertyRole
  | value
  | getter
  | setter
  deriving DecidableEq, Repr

inductive Kind
  /-- A name that is read. -/
  | identifier (name : String)
  /-- A name that is introduced. -/
  | binding (name : String)
  /-- A name that is only a label: a member, a key. -/
  | word (name : String)
  /-- A name of a tag or an attribute. -/
  | jsxWord (name : String)
  | booleanLiteral
  | stringLiteral (value : String)
  /-- templateText*, expression* -/
  | template
  | templateText
  /-- tag, typeArguments?, template -/
  | taggedTemplate
  /-- operand -/
  | unary (op : UnaryOp)
  /-- left, right -/
  | binary (op : BinaryOp)
  /-- left, right -/
  | logical (op : LogicalOp)
  /-- target, right -/
  | assignment (op : AssignOp)
  /-- test, consequent, alternate -/
  | conditional
  /-- object, property -/
  | member (access : Access)
  /-- A whole optional chain: one call, member or wrapper -/
  | chain
  /-- callee, typeArguments?, argument* -/
  | call
  /-- callee, typeArguments?, argument* -/
  | construct
  | spread
  /-- expression, type? -/
  | wrapper (form : Wrapper)
  /-- Written `<T>e`: type, expression -/
  | typeAssertion
  /-- The word `this`. -/
  | selfReference
  /-- key, value -/
  | property (role : PropertyRole) (method computed : Bool)
  | program
  | classLike
  /-- typeParameters?, parameters, ascription?, functionBody -/
  | arrow
  /-- binding?, typeParameters?, parameters, ascription?, functionBody? -/
  | function (form : FunctionForm)
  | functionBody
  /-- parameter*, restParameter? -/
  | parameters
  /-- decorator*, pattern, ascription?, default? -/
  | parameter
  | decorator
  /-- pattern, ascription? -/
  | catchParameter
  /-- pattern, ascription?, initializer? -/
  | declarator
  /-- pattern, default -/
  | defaultPattern
  /-- Written `: T`: type -/
  | ascription
  /-- identifier or qualifiedName, typeArguments? -/
  | typeReference
  /-- identifier or qualifiedName, word -/
  | qualifiedName
  /-- type* -/
  | typeArguments
  /-- type* -/
  | unionType
  /-- type -/
  | parenthesizedType
  | functionType
  | booleanType
  /-- key, ascription? -/
  | propertySignature
  /-- key, ... -/
  | methodSignature
  /-- An index, call or construct signature. -/
  | bareSignature
  /-- binding, ... -/
  | interface
  /-- binding, ... -/
  | typeAlias
  /-- opening, child*, closing? -/
  | element
  | fragment
  /-- name, typeArguments?, (jsxAttribute or jsxSpread)* -/
  | opening
  /-- name, value?; `printed` is the canonical text of the expression in a braced value -/
  | jsxAttribute (printed : Option String)
  | jsxSpread
  /-- jsxWord, jsxWord -/
  | namespacedName
  /-- object, jsxWord -/
  | jsxMember
  /-- Written `{e}`: expression or emptyExpression -/
  | container
  | emptyExpression
  /-- Any other node. -/
  | other (label : String)
  deriving DecidableEq, Repr

end JsxLint
