import JsxLint.Expression.Handler
import JsxLint.Diagnostic.Basic
import JsxLint.Name.Handler
import JsxLint.Rule.Id
import JsxLint.Surroundings
import JsxLint.Tree.TypeForm

/-! Rule `event-handler-naming`: a handler declared inside a component or hook is called
`handleX`, a handler among the props `onX`. -/
namespace JsxLint.EventHandlerNaming
open Name (HandlerRole)

/-- The handler among the props that a member signature declares. -/
def propHandler? (site : Site) : Option (HandlerRole × Ident) := do
  let key ← site.node.key?
  if site.around.typeName?.any Name.isPropsLike && Name.isHandlerLike key.name then
    return (.prop, key)
  else none

def declared? (site : Site) : Option (HandlerRole × Ident) :=
  match site.node.kind with
  | .declarator => do
    let declarator ← site.node.declarator?
    let ident ← declarator.ident?
    if declarator.init?.any Node.isHandlerShaped && Name.isHandlerLike ident.name &&
        site.around.functionKind?.any (·.isComponentOrHook) then
      return (.internal, ident)
    else none
  | .propertySignature =>
    if site.node.signatureType?.any Node.isFunctionType then propHandler? site else none
  | .methodSignature => propHandler? site
  | _ => none

def template : String :=
  "Event \x7b\x7bcontext\x7d\x7d `\x7b\x7bname\x7d\x7d` should be named " ++
    "`\x7b\x7bsuggested\x7d\x7d`."

def roleWord : HandlerRole → String
  | .internal => "handler"
  | .prop => "handler prop"

def report? (role : HandlerRole) (ident : Ident) : Option Diagnostic := do
  let expected ← Name.expectedHandler? role ident.name
  if expected = ident.name then none
  else
    return Diagnostic.warning RuleId.eventHandlerNaming.name ident.span template
      |>.withData "context" (roleWord role)
      |>.withData "name" ident.name
      |>.withData "suggested" expected

def check (site : Site) : List Diagnostic :=
  ((declared? site).bind fun (role, ident) => report? role ident).toList

end JsxLint.EventHandlerNaming
