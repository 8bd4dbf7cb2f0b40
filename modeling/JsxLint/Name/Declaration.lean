import JsxLint.Text.Affix
import JsxLint.Text.LetterCase

/-! What the name of a function says about it, and how the props type of a component is named. -/
namespace JsxLint.Name
open JsxLint.Text

inductive DeclarationKind
  | component
  | hook
  | plain
  deriving DecidableEq, Repr

def isHook (name : String) : Bool :=
  (afterHead? "use" name).any fun rest => rest.toList.head?.any Char.isUpper

namespace DeclarationKind

def ofName (name : String) : DeclarationKind :=
  if startsUppercase name then component
  else if isHook name then hook
  else plain

/-- Components and hooks may hold event handlers. -/
def isComponentOrHook : DeclarationKind → Bool
  | component | hook => true
  | plain => false

end DeclarationKind

/-- Endings of the names of parameter contracts. -/
def propsEndings : List String :=
  ["Props", "Options", "Config", "Settings"]

def isPropsLike (name : String) : Bool :=
  propsEndings.any (endsWith · name)

def expectedProps (component : String) : String :=
  component ++ "Props"

/-- Endings of a component name that its props name may leave out. -/
def componentEndings : List String :=
  ["FunctionComponent", "ComponentFunction", "Component"]

/-- All props names that a component may use: the proposed one and, for a component named
`UserComponent`, also `UserProps`. -/
def acceptedProps (component : String) : List String :=
  let short? := componentEndings.findSome? fun ending =>
    (beforeTail? ending component).filter (· ≠ "")
  expectedProps component :: (short?.map expectedProps).toList

end JsxLint.Name
