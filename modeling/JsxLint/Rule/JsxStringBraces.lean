import JsxLint.Diagnostic.Basic
import JsxLint.Rule.Id
import JsxLint.Text.Quoted
import JsxLint.Tree.Jsx

/-! Rule `jsx-string-braces`: a string that is the value of an attribute stands in braces. The
fix writes the same value as a string literal. -/
namespace JsxLint.JsxStringBraces

/-- A string literal with the value of an attribute string that is written `raw`. Attributes know
entities and no escapes: a string with an entity has no literal, and a backslash or line break has
to be escaped. -/
def literal? (raw value : String) : Option String :=
  if raw.toList.contains '&' then none
  else if raw.toList.isEmpty || raw.toList.any ['\\', '\n', '\r'].contains then
    some (Text.quoted value)
  else some raw

def template : String :=
  "Wrap the string value \"\x7b\x7bvalue\x7d\x7d\" of `\x7b\x7battribute\x7d\x7d` in braces."

def fix (span : Span) (literal : String) : Fix where
  span := span
  replacement := "\x7b" ++ literal ++ "\x7d"
  message? := some "Wrap the string in braces"

def report? (source : String) (attr : Node) : Option Diagnostic := do
  let name ← attr.attributeName?
  let .mk (.stringLiteral value) span _ ← attr.attributeValue? | none
  let diagnostic := Diagnostic.warning RuleId.jsxStringBraces.name span template
    |>.withData "attribute" name
    |>.withData "value" value
  match literal? (Text.slice source span) value with
  | some literal => return diagnostic.withFix (fix span literal)
  | none => return diagnostic

def check (source : String) (site : Site) : List Diagnostic :=
  site.node.attributeItems.filterMap (report? source)

end JsxLint.JsxStringBraces
