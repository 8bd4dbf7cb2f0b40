import JsxLint.Config
import JsxLint.Report
import JsxLint.Rule.DerivedConditionalNaming
import JsxLint.Rule.EventHandlerNaming
import JsxLint.Rule.JsxStringBraces
import JsxLint.Rule.NoComplexJsxConditions
import JsxLint.Rule.PropInterfaceNaming

/-! One run over a parsed file: the sites are visited in source order, and at each site every
enabled rule reports what it finds. Only `derived-conditional-naming` carries something from one
site to the next. The text serves to quote from; it need not be the one that was parsed. -/
namespace JsxLint

/-- The findings at a site in the order of a report; `gates` are those of
`derived-conditional-naming`. -/
def Config.findings (c : Config) (source : String) (site : Site) (gates : List Diagnostic) :
    List Diagnostic :=
  c.booleanNaming.elim [] (BooleanNaming.check · site) ++
    c.noInlineStyles.elim [] (NoInlineStyles.check · source site) ++
    (if c.jsxStringBraces then JsxStringBraces.check source site else []) ++
    (if c.noComplexJsxConditions then NoComplexJsxConditions.check site else []) ++
    gates ++
    (if c.eventHandlerNaming then EventHandlerNaming.check site else []) ++
    (if c.propInterfaceNaming then PropInterfaceNaming.check source site else [])

def Config.visitAll (c : Config) (source : String) : List Site → DerivedStore → List Diagnostic
  | [], store =>
    if c.derivedConditionalNaming then (DerivedConditionalNaming.finish store).1 else []
  | site :: sites, store =>
    if c.derivedConditionalNaming then
      let (gates, store) := DerivedConditionalNaming.visit site store
      c.findings source site gates ++ c.visitAll source sites store
    else c.findings source site [] ++ c.visitAll source sites store

def Config.lint (c : Config) (source : String) (root : Node) : Report :=
  ⟨c.visitAll source root.sites .empty⟩

inductive Parsed
  | tree (root : Node)
  | failed (errors : List String)

inductive LintError
  | parse (errors : List String)
  | config (error : ConfigError)
  deriving DecidableEq, Repr

def LintError.message? : LintError → Option String
  | parse errors => some ("Parse failure: " ++ "; ".intercalate errors)
  | config error => error.message?

def lintParsed (c : Config) (source : String) : Parsed → Except LintError Report
  | .tree root => .ok (c.lint source root)
  | .failed errors => .error (.parse errors)

/-- Run the rules that a configuration text asks for; without one, all of them. An unusable
configuration is reported before a failed parse. -/
def lintConfigured (config? : Option String) (source : String) (parsed : Parsed) :
    Except LintError Report :=
  match Config.ofText? config? with
  | .ok c => lintParsed c source parsed
  | .error e => .error (.config e)

/-- Run all rules, whatever a configuration text asks for. The text must be usable all the
same. -/
def lintUnconfigured (config? : Option String) (source : String) (parsed : Parsed) :
    Except LintError Report :=
  match Config.ofText? config? with
  | .ok _ => lintParsed .allOn source parsed
  | .error e => .error (.config e)

end JsxLint
