import JsxLint.Text.Affix
import JsxLint.Text.LetterCase

/-! Names of event handlers: `handleClick` inside a component, `onClick` among its props. The
event is recovered from a name by taking off what only says that it is a handler. -/
namespace JsxLint.Name
open JsxLint.Text

/-- Which side of a component boundary a handler lives on. -/
inductive HandlerRole
  /-- Declared inside the component. -/
  | internal
  /-- Handed in through the props. -/
  | prop
  deriving DecidableEq, Repr

namespace HandlerRole

def opener : HandlerRole → String
  | internal => "handle"
  | prop => "on"

end HandlerRole

/-- What follows `head`, if that begins with a capital. -/
def afterCamel? (head name : String) : Option String :=
  (afterHead? head name).filter startsUppercase

/-- What precedes `tail`, if anything does. -/
def beforeProper? (tail name : String) : Option String :=
  (beforeTail? tail name).filter (· ≠ "")

/-- Names that read as handlers: `handleX`, `onX`, `xHandler`, `xCallback`. -/
def isHandlerLike (name : String) : Bool :=
  (afterCamel? "handle" name).isSome || (afterCamel? "on" name).isSome ||
    ["Handler", "Callback"].any fun tail => (beforeProper? tail name).isSome

def handlerEndings : List String :=
  ["Handler", "Callback", "Function", "Fn"]

def pastEvents : List (String × String) :=
  [("Changed", "Change"), ("Clicked", "Click"), ("Pressed", "Press")]

def withoutOpener (name : String) : String :=
  ((afterCamel? "handle" name).or (afterCamel? "on" name)).getD name

/-- The name without the first of the handler endings that it has, if something remains. -/
def withoutEnding (name : String) : String :=
  (handlerEndings.findSome? (beforeProper? · name)).getD name

/-- The name with a past form at its end put into the present, if something comes before it. -/
def inPresent (name : String) : String :=
  (pastEvents.findSome? fun (past, present) =>
    (beforeProper? past name).map (· ++ present)).getD name

/-- The event that a handler responds to: `SaveClick` for `handleSaveClicked`. -/
def event? (name : String) : Option String :=
  let event := inPresent (withoutEnding (withoutOpener name))
  if event = "" then none else some (capitalize event)

def expectedHandler? (role : HandlerRole) (name : String) : Option String :=
  (event? name).map (role.opener ++ ·)

end JsxLint.Name
