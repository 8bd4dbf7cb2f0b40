import JsxLint.Diagnostic.Fix
import JsxLint.Diagnostic.Template

/-! Diagnostics: what a rule reports about a place in the source. The message is always the
template with the data filled in. -/
namespace JsxLint

inductive Severity
  | error
  | warning
  deriving DecidableEq, Repr

structure Diagnostic where
  rule : String
  span : Span
  template : String
  data : Data
  message : String
  help? : Option String
  severity : Severity
  fixes : List Fix
  deriving DecidableEq, Repr

namespace Diagnostic

/-- A finding with no data, help or fixes yet; it is a warning until told otherwise. -/
def ofTemplate (rule : String) (span : Span) (template : String) : Diagnostic where
  rule := rule
  span := span
  template := template
  data := []
  message := template
  help? := none
  severity := .warning
  fixes := []

/-- Give a placeholder its value and fill the message in anew. -/
def withData (key value : String) (d : Diagnostic) : Diagnostic :=
  let data := d.data.insert key value
  { d with data := data, message := Template.render d.template data }

def withHelp (help : String) (d : Diagnostic) : Diagnostic :=
  { d with help? := some help }

def withSeverity (severity : Severity) (d : Diagnostic) : Diagnostic :=
  { d with severity := severity }

def withFix (fix : Fix) (d : Diagnostic) : Diagnostic :=
  { d with fixes := d.fixes ++ [fix] }

def warning (rule : String) (span : Span) (template : String) : Diagnostic :=
  (ofTemplate rule span template).withSeverity .warning

end Diagnostic

end JsxLint
