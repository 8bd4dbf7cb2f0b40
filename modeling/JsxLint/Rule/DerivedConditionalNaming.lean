import JsxLint.Expression.Boolean
import JsxLint.DerivedStore
import JsxLint.Diagnostic.Basic
import JsxLint.Name.Underscore
import JsxLint.Placement
import JsxLint.Rule.Id
import JsxLint.Surroundings

/-! Rule `derived-conditional-naming`: a condition that is derived from other values and then
decides whether JSX is rendered begins with an underscore.

Declarations are entered into a store as the sites of a file are visited, and one is reported
when a gate first reads it. A gate reads the nearest variable of its name, so a parameter or
plain variable of an inner function hides an outer condition. A gate whose name is not known yet
is resolved at the end. -/
namespace JsxLint.DerivedConditionalNaming

def template : String :=
  "Derived condition `\x7b\x7bname\x7d\x7d` is used to render JSX; " ++
    "prefix it with an underscore: `\x7b\x7bsuggested\x7d\x7d`."

def report (name : String) (span : Span) : Diagnostic :=
  Diagnostic.warning RuleId.derivedConditionalNaming.name span template
    |>.withData "name" name
    |>.withData "suggested" (Name.underscored name)

/-- The derived condition that a declarator introduces under a name without an underscore. -/
def candidate? (declarator : Declarator) : Option Ident := do
  let ident ← declarator.ident?
  let init ← declarator.init?
  if !Name.isUnderscored ident.name && init.isDerivedCandidate ident.name then return ident
  else none

def readGate (scopes : List Span) : List String → DerivedStore → List Diagnostic × DerivedStore
  | [], store => ([], store)
  | name :: names, store =>
    match store.consume name scopes with
    | (.derived span, store) =>
      let (found, store) := readGate scopes names store
      (report name span :: found, store)
    | (.other, store) => readGate scopes names store
    | (.unbound, store) => readGate scopes names (store.defer name scopes)

/-- Enter what a site declares, or resolve the gate that it is. -/
def visit (site : Site) (store : DerivedStore) : List Diagnostic × DerivedStore :=
  match site.node.kind with
  | .declarator =>
    match site.node.declarator?.bind candidate? with
    | some ident => ([], store.record ident.name site.around.scope ident.span)
    | none => ([], store)
  | .binding name =>
    if site.around.bindsVariable then
      ([], store.bindPlain name site.around.scope site.node.span)
    else ([], store)
  | _ =>
    match site.gate? with
    | some condition => readGate site.around.scopes condition.gatingNames store
    | none => ([], store)

/-- Resolve gates that were kept for later; a name that is still unknown is dropped. -/
def resolveDeferred : List DeferredGate → DerivedStore → List Diagnostic × DerivedStore
  | [], store => ([], store)
  | gate :: gates, store =>
    match store.consume gate.name gate.scopes with
    | (.derived span, store) =>
      let (found, store) := resolveDeferred gates store
      (report gate.name span :: found, store)
    | (_, store) => resolveDeferred gates store

def finish (store : DerivedStore) : List Diagnostic × DerivedStore :=
  let (gates, store) := store.takeDeferred
  resolveDeferred gates store

end JsxLint.DerivedConditionalNaming
