import JsxLint.Name.Declaration
import JsxLint.Text.Slice
import JsxLint.Tree.Binding
import JsxLint.Tree.Call
import JsxLint.Tree.TypeForm

/-! The props type of a component by name. It can be written in three places: on the first
parameter, among the type arguments of the variable's own type, or as the second type argument
of `forwardRef`. A type that is written out has no name. -/
namespace JsxLint

inductive PropsPlace
  | parameter
  /-- As a qualified name, kept as written. -/
  | qualified
  /-- In the type of the variable. -/
  | ascribed
  | forwardRef
  deriving DecidableEq, Repr

structure PropsType where
  name : String
  span : Span
  place : PropsPlace
  deriving DecidableEq, Repr

namespace Node

def isTypeReference : Node → Bool
  | mk .typeReference _ _ => true
  | _ => false

/-- A type reference as written, or its dotted name where the text has nothing. -/
def writtenReference (source : String) (reference : Node) : String :=
  let written := Text.slice source reference.span
  if written ≠ "" then written
  else
    match reference with
    | mk .typeReference _ (name :: _) => name.dottedName
    | _ => ""

/-- How a type reference is shown: a plain name, or as written. -/
def shownReference (source : String) (reference : Node) : String :=
  match reference with
  | mk .typeReference _ (mk (.identifier name) _ _ :: _) => name
  | _ => reference.writtenReference source

def referencedProps? (source : String) (place : PropsPlace) (type : Node) : Option PropsType :=
  match type with
  | mk .typeReference span (mk (.identifier name) _ _ :: _) => some ⟨name, span, place⟩
  | mk .typeReference span (mk .qualifiedName _ _ :: _) =>
    some ⟨type.writtenReference source, span, .qualified⟩
  | _ => none

end Node

mutual

/-- The type references nested in the type arguments of a reference, outer before inner. -/
def Node.nestedReferences : Node → List Node
  | .mk .typeReference _ (_ :: .mk .typeArguments _ types :: _) => nestedReferencesAll types
  | _ => []

def nestedReferencesAll : List Node → List Node
  | [] => []
  | type :: types =>
    (if type.isTypeReference then [type] else []) ++ type.nestedReferences ++
      nestedReferencesAll types

end

mutual

/-- The call of `forwardRef` behind an expression, which may be an argument of other calls. -/
def Node.forwardRefCall? : Node → Option Node
  | .mk (.wrapper _) _ (e :: _) => e.forwardRefCall?
  | .mk .typeAssertion _ (_ :: e :: _) => e.forwardRefCall?
  | .mk .call s (callee :: rest) =>
    if callee.calleeName? = some "forwardRef" then some (.mk .call s (callee :: rest))
    else firstForwardRefCall? rest
  | _ => none

def firstForwardRefCall? : List Node → Option Node
  | [] => none
  | e :: es => e.forwardRefCall?.or (firstForwardRefCall? es)

end

theorem firstForwardRefCall?_eq_findSome? (es : List Node) :
    firstForwardRefCall? es = es.findSome? Node.forwardRefCall? := by
  induction es with
  | nil => rfl
  | cons e es ih =>
    rw [firstForwardRefCall?, ih, List.findSome?_cons]
    cases e.forwardRefCall? <;> rfl

namespace PropsType

def ofParameter? (source : String) (parameter : Node) : Option PropsType := do
  let type ← (← parameter.parameter?).type?
  type.referencedProps? source .parameter

/-- The props type among the type arguments of a variable's type: the first with a name like a
parameter contract, else the first of all. -/
def ofAscription? (source : String) (type : Node) : Option PropsType := do
  let shown := type.nestedReferences.map fun r => (r.shownReference source, r.span)
  let (name, span) ← (shown.find? (Name.isPropsLike ·.1)).or shown.head?
  return ⟨name, span, .ascribed⟩

def ofForwardRef? (source : String) (init : Node) : Option PropsType := do
  let call ← init.forwardRefCall?
  let type ← call.typeArguments[1]?
  type.referencedProps? source .forwardRef

end PropsType

end JsxLint
