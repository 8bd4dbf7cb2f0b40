import JsxLint.Expression.Boolean
import JsxLint.Diagnostic.Basic
import JsxLint.Rule.Id
import JsxLint.Surroundings
import JsxLint.Tree.TypeForm

/-! Rule `boolean-naming`: a boolean variable, property or parameter carries a name that opens
with one of the configured words. -/
namespace JsxLint.BooleanNaming

structure Options where
  /-- Words that the name of a boolean may open with; proposals use the first. -/
  allowedPrefixes : List String := ["is"]
  /-- Methods whose object argument selects fields by `true`. -/
  schemaMethods : List String := ["pick", "omit"]
  deriving DecidableEq, Repr

inductive Holder
  | var
  | property
  | parameter
  deriving DecidableEq, Repr

namespace Holder

def word : Holder → String
  | var => "variable"
  | property => "property"
  | parameter => "parameter"

end Holder

/-- The words that the rule goes by: the configured ones that are not empty, or `is`. -/
def Options.openers (o : Options) : List String :=
  match o.allowedPrefixes.filter (· ≠ "") with
  | [] => ["is"]
  | openers => openers

/-- The boolean that is declared at a site. Field selectors such as `schema.pick({ id: true })`
and options of a constructor declare none. -/
def declared? (o : Options) (site : Site) : Option (Holder × Ident) :=
  match site.node.kind with
  | .declarator => do
    let declarator ← site.node.declarator?
    let ident ← declarator.ident?
    if declarator.type?.any Node.isBooleanType || declarator.init?.any Node.isBooleanValue then
      return (.var, ident)
    else none
  | .propertySignature =>
    if site.node.signatureType?.any Node.isBooleanType then site.node.key?.map (.property, ·)
    else none
  | .property .value false false =>
    if site.node.children[1]?.any Node.isBooleanValue &&
        !site.around.insideCallNamed o.schemaMethods && !site.around.insideConstruct then
      site.node.key?.map (.property, ·)
    else none
  | .parameter => do
    let parameter ← site.node.parameter?
    let ident ← parameter.ident?
    if parameter.type?.any Node.isBooleanType then return (.parameter, ident) else none
  | _ => none

def template : String :=
  "Boolean \x7b\x7bcontext\x7d\x7d `\x7b\x7bname\x7d\x7d` should start with one of: " ++
    "\x7b\x7bprefixes\x7d\x7d. Consider renaming it to `\x7b\x7bsuggested\x7d\x7d`."

def report? (o : Options) (holder : Holder) (ident : Ident) : Option Diagnostic :=
  (Name.decision o.openers ident.name).proposal?.map fun proposal =>
    Diagnostic.warning RuleId.booleanNaming.name ident.span template
      |>.withData "context" holder.word
      |>.withData "name" ident.name
      |>.withData "suggested" proposal
      |>.withData "prefixes" (", ".intercalate o.openers)

def check (o : Options) (site : Site) : List Diagnostic :=
  ((declared? o site).bind fun (holder, ident) => report? o holder ident).toList

end JsxLint.BooleanNaming
