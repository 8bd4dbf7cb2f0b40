/-! The seven rules by name. -/
namespace JsxLint

inductive Category
  | pedantic
  | style
  deriving DecidableEq, Repr

inductive RuleId
  | booleanNaming
  | derivedConditionalNaming
  | eventHandlerNaming
  | jsxStringBraces
  | noComplexJsxConditions
  | noInlineStyles
  | propInterfaceNaming
  deriving DecidableEq, Repr

namespace RuleId

def name : RuleId → String
  | booleanNaming => "boolean-naming"
  | derivedConditionalNaming => "derived-conditional-naming"
  | eventHandlerNaming => "event-handler-naming"
  | jsxStringBraces => "jsx-string-braces"
  | noComplexJsxConditions => "no-complex-jsx-conditions"
  | noInlineStyles => "no-inline-styles"
  | propInterfaceNaming => "prop-interface-naming"

/-- All rules in the order of their names. -/
def all : List RuleId :=
  [booleanNaming, derivedConditionalNaming, eventHandlerNaming, jsxStringBraces,
    noComplexJsxConditions, noInlineStyles, propInterfaceNaming]

def ofName? (name : String) : Option RuleId :=
  all.find? (·.name = name)

def category : RuleId → Category
  | noComplexJsxConditions => .pedantic
  | _ => .style

theorem mem_all (id : RuleId) : id ∈ all := by
  cases id <;> decide

theorem ofName?_name (id : RuleId) : ofName? id.name = some id := by
  cases id <;> rfl

theorem name_injective {a b : RuleId} (h : a.name = b.name) : a = b := by
  have := ofName?_name a
  rw [h, ofName?_name] at this
  exact (Option.some.inj this).symm

theorem ofName?_eq_some_iff {name : String} {id : RuleId} :
    ofName? name = some id ↔ id.name = name := by
  constructor
  · intro h
    simpa using List.find?_some h
  · rintro rfl
    exact ofName?_name id

theorem ofName?_eq_none_iff {name : String} :
    ofName? name = none ↔ ∀ id : RuleId, id.name ≠ name := by
  simp [ofName?, mem_all]

end RuleId

end JsxLint
