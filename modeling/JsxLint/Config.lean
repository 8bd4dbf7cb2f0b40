import JsxLint.Json.Reader
import JsxLint.Rule.BooleanNaming
import JsxLint.Rule.Id
import JsxLint.Rule.NoInlineStyles

/-! Which rules run, and with which options. A configuration text is a JSON object with an entry
for each rule: `false`, `true` or options. Rules that it does not name are off. Entries are taken
in the order of their keys, so the first key at fault decides the error. -/
namespace JsxLint

structure Config where
  booleanNaming : Option BooleanNaming.Options
  derivedConditionalNaming : Bool
  eventHandlerNaming : Bool
  jsxStringBraces : Bool
  noComplexJsxConditions : Bool
  noInlineStyles : Option NoInlineStyles.Options
  propInterfaceNaming : Bool
  deriving DecidableEq, Repr

inductive ConfigError
  | malformed
  /-- The text is JSON but no object. -/
  | notAnObject
  /-- The value for a rule has the wrong shape. -/
  | setting
  | unknownRule (name : String)
  deriving DecidableEq, Repr

/-- The text of an error that has a fixed one. -/
def ConfigError.message? : ConfigError → Option String
  | malformed => none
  | notAnObject => none
  | setting =>
    some ("Invalid rule configuration: " ++
      "data did not match any variant of untagged enum RuleSetting")
  | unknownRule name => some ("Unknown rule in configuration: " ++ name)

namespace Config

/-- Every rule on, with its default options. -/
def allOn : Config where
  booleanNaming := some {}
  derivedConditionalNaming := true
  eventHandlerNaming := true
  jsxStringBraces := true
  noComplexJsxConditions := true
  noInlineStyles := some {}
  propInterfaceNaming := true

def allOff : Config where
  booleanNaming := none
  derivedConditionalNaming := false
  eventHandlerNaming := false
  jsxStringBraces := false
  noComplexJsxConditions := false
  noInlineStyles := none
  propInterfaceNaming := false

def enables (c : Config) : RuleId → Bool
  | .booleanNaming => c.booleanNaming.isSome
  | .derivedConditionalNaming => c.derivedConditionalNaming
  | .eventHandlerNaming => c.eventHandlerNaming
  | .jsxStringBraces => c.jsxStringBraces
  | .noComplexJsxConditions => c.noComplexJsxConditions
  | .noInlineStyles => c.noInlineStyles.isSome
  | .propInterfaceNaming => c.propInterfaceNaming

def enabledRules (c : Config) : List String :=
  (RuleId.all.filter c.enables).map RuleId.name

/-- Turn a rule on or off; a rule with options is turned on with its default ones. -/
def set (c : Config) (rule : RuleId) (on : Bool) : Config :=
  match rule with
  | .booleanNaming => { c with booleanNaming := if on then some {} else none }
  | .derivedConditionalNaming => { c with derivedConditionalNaming := on }
  | .eventHandlerNaming => { c with eventHandlerNaming := on }
  | .jsxStringBraces => { c with jsxStringBraces := on }
  | .noComplexJsxConditions => { c with noComplexJsxConditions := on }
  | .noInlineStyles => { c with noInlineStyles := if on then some {} else none }
  | .propInterfaceNaming => { c with propInterfaceNaming := on }

/-- A list of strings in an options object, or its default where the field is missing. -/
def field? (entries : Json.Entries) (name : String) (fallback : List String) :
    Option (List String) :=
  match entries.get? name with
  | some value => value.texts?
  | none => some fallback

def position? (items : List Json) (index : Nat) (fallback : List String) :
    Option (List String) :=
  match items[index]? with
  | some value => value.texts?
  | none => some fallback

/-- Options of `boolean-naming`: an object, or an array with the fields in order. -/
def booleanNamingOptions? : Json → Option BooleanNaming.Options
  | .object entries => do
    let base : BooleanNaming.Options := {}
    return {
      allowedPrefixes := ← field? entries "allowedPrefixes" base.allowedPrefixes
      schemaMethods := ← field? entries "schemaMethods" base.schemaMethods }
  | .array items => do
    let base : BooleanNaming.Options := {}
    if items.length ≤ 2 then
      return {
        allowedPrefixes := ← position? items 0 base.allowedPrefixes
        schemaMethods := ← position? items 1 base.schemaMethods }
    else none
  | _ => none

def noInlineStylesOptions? : Json → Option NoInlineStyles.Options
  | .object entries => do
    let base : NoInlineStyles.Options := {}
    return { attributes := ← field? entries "attributes" base.attributes }
  | .array items => do
    let base : NoInlineStyles.Options := {}
    if items.length ≤ 1 then return { attributes := ← position? items 0 base.attributes }
    else none
  | _ => none

/-- Set a rule as a configuration entry says; `none` if the value has the wrong shape. -/
def configure? (c : Config) (rule : RuleId) : Json → Option Config
  | .boolean on => some (c.set rule on)
  | value =>
    match rule with
    | .booleanNaming =>
      (booleanNamingOptions? value).map fun o => { c with booleanNaming := some o }
    | .noInlineStyles =>
      (noInlineStylesOptions? value).map fun o => { c with noInlineStyles := some o }
    | rule =>
      match value with
      | .object _ => some (c.set rule true)
      | _ => none

def addEntry (c : Config) (entry : String × Json) : Except ConfigError Config :=
  match RuleId.ofName? entry.1 with
  | none => .error (.unknownRule entry.1)
  | some rule =>
    match c.configure? rule entry.2 with
    | none => .error .setting
    | some c => .ok c

def ofEntries (entries : Json.Entries) : Except ConfigError Config :=
  entries.foldlM addEntry allOff

def ofText (text : String) : Except ConfigError Config :=
  match Json.readObject text with
  | .ok entries => ofEntries entries
  | .error .malformed => .error .malformed
  | .error .notAnObject => .error .notAnObject

/-- The configuration for a text that may be missing; without one every rule is on. -/
def ofText? : Option String → Except ConfigError Config
  | none => .ok allOn
  | some text => ofText text

end Config

end JsxLint
