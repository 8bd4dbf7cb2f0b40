import JsxLint.Tree.Call

/-! Expressions that make an event handler: a function, or a function handed to a hook that
returns it. -/
namespace JsxLint

/-- Hooks that return the function they are given. -/
def callbackHooks : List String :=
  ["useCallback", "useEvent", "useEffectEvent"]

mutual

/-- The expression is a function, possibly inside callback hooks. -/
def Node.isHandlerShaped : Node → Bool
  | .mk (.wrapper _) _ (e :: _) => e.isHandlerShaped
  | .mk .typeAssertion _ (_ :: e :: _) => e.isHandlerShaped
  | .mk .arrow _ _ => true
  | .mk (.function _) _ _ => true
  | .mk .call _ (callee :: rest) => callee.calleeName?.any callbackHooks.contains &&
      firstIsHandlerShaped rest
  | _ => false

/-- The first argument is a handler; type arguments may stand before it. -/
def firstIsHandlerShaped : List Node → Bool
  | [] => false
  | .mk .typeArguments _ _ :: rest => firstIsHandlerShaped rest
  | first :: _ => first.isHandlerShaped

end

end JsxLint
