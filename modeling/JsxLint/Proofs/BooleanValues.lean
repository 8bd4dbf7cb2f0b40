import JsxLint.Expression.Boolean
import Mathlib.Tactic.Common

/-! What the classification of expressions says about their values. An evaluation is any way of
giving values to expressions that keeps to a few laws of scripts; calls, members and all other
forms may yield anything. In every evaluation, an expression that looks boolean or derives a
condition yields booleans only. The converse is not asserted: a call that returns a boolean is
neither. -/
namespace JsxLint

def BinaryOp.comparisons : List BinaryOp :=
  [.equal, .strictEqual, .unequal, .strictUnequal, .less, .greater, .lessEqual, .greaterEqual]

lemma BinaryOp.mem_comparisons_of_isComparison {op : BinaryOp} (h : op.isComparison = true) :
    op ∈ comparisons := by
  cases op with
  | other symbol => cases h
  | _ => decide

universe u

/-- Which values an expression may yield, and which values are booleans. -/
structure Evaluation (Value : Type u) where
  yields : Node → Value → Prop
  isBoolean : Value → Prop
  /-- Wrappers hand on the value of their expression. -/
  wrapper {form : Wrapper} {s : Span} {e : Node} {types : List Node} {v : Value} :
    yields (.mk (.wrapper form) s (e :: types)) v → yields e v
  assertion {s : Span} {type e : Node} {rest : List Node} {v : Value} :
    yields (.mk .typeAssertion s (type :: e :: rest)) v → yields e v
  literal {s : Span} {parts : List Node} {v : Value} :
    yields (.mk .booleanLiteral s parts) v → isBoolean v
  negation {s : Span} {parts : List Node} {v : Value} :
    yields (.mk (.unary .not) s parts) v → isBoolean v
  comparison {op : BinaryOp} {s : Span} {parts : List Node} {v : Value}
    (h : op ∈ BinaryOp.comparisons) : yields (.mk (.binary op) s parts) v → isBoolean v
  /-- `&&`, `||` and `??` hand back one of their operands. -/
  logical {op : LogicalOp} {s : Span} {left right : Node} {v : Value} :
    yields (.mk (.logical op) s [left, right]) v → yields left v ∨ yields right v
  conditional {s : Span} {test consequent alternate : Node} {v : Value} :
    yields (.mk .conditional s [test, consequent, alternate]) v →
      yields consequent v ∨ yields alternate v
  /-- A name that reads as a question is bound to a boolean. -/
  identifier {name : String} {s : Span} {parts : List Node} {v : Value}
    (h : Name.isBooleanLike name = true) : yields (.mk (.identifier name) s parts) v → isBoolean v

namespace Evaluation
variable {Value : Type u} (eval : Evaluation Value)

lemma yields_peel {e : Node} {v : Value} (h : eval.yields e v) : eval.yields e.peel v := by
  fun_induction Node.peel e with
  | case1 form s e rest ih => exact ih (eval.wrapper h)
  | case2 s type e rest ih => exact ih (eval.assertion h)
  | case3 e => exact h

/-- An expression that looks boolean yields booleans only. -/
theorem isBoolean_of_isLikelyBoolean {e : Node} {v : Value} (hlikely : e.isLikelyBoolean = true)
    (h : eval.yields e v) : eval.isBoolean v := by
  induction e using Node.isLikelyBoolean.induct with
  | case1 form s e rest ih =>
    rw [Node.isLikelyBoolean] at hlikely
    exact ih hlikely (eval.wrapper h)
  | case2 s type e rest ih =>
    rw [Node.isLikelyBoolean] at hlikely
    exact ih hlikely (eval.assertion h)
  | case3 s parts => exact eval.literal h
  | case4 name s parts =>
    rw [Node.isLikelyBoolean] at hlikely
    exact eval.identifier hlikely h
  | case5 op s parts =>
    obtain rfl : op = .not := by simpa [Node.isLikelyBoolean] using hlikely
    exact eval.negation h
  | case6 op s parts =>
    rw [Node.isLikelyBoolean] at hlikely
    exact eval.comparison (BinaryOp.mem_comparisons_of_isComparison hlikely) h
  | case7 op s left right ihleft ihright =>
    simp only [Node.isLikelyBoolean, Bool.and_eq_true] at hlikely
    rcases eval.logical h with hl | hr
    · exact ihleft hlikely.1.2 hl
    · exact ihright hlikely.2 hr
  | case8 s test consequent alternate ihconsequent ihalternate =>
    simp only [Node.isLikelyBoolean, Bool.and_eq_true] at hlikely
    rcases eval.conditional h with hc | ha
    · exact ihconsequent hlikely.1 hc
    · exact ihalternate hlikely.2 ha
  | case9 e hwrapper hassertion hliteral hidentifier hunary hbinary hlogical hconditional =>
    rw [Node.isLikelyBoolean.eq_9 e hwrapper hassertion hliteral hidentifier hunary hbinary hlogical
      hconditional] at hlikely
    cases hlikely

/-- A derived condition yields booleans only. Unlike an expression that looks boolean it may be a
`??`, but only between operands that look boolean. -/
theorem isBoolean_of_isDerived {e : Node} {v : Value} (hderived : e.isDerived = true)
    (h : eval.yields e v) : eval.isBoolean v := by
  have hpeel := eval.yields_peel h
  simp only [Node.isDerived, Bool.and_eq_true] at hderived
  obtain ⟨-, hform⟩ := hderived
  split at hform
  · rename_i op s left right hlogical
    simp only [Bool.and_eq_true] at hform
    rcases eval.logical (hlogical ▸ hpeel) with hl | hr
    · exact eval.isBoolean_of_isLikelyBoolean hform.1 hl
    · exact eval.isBoolean_of_isLikelyBoolean hform.2 hr
  · rename_i op s parts hunary
    obtain rfl : op = .not := by simpa using hform
    exact eval.negation (hunary ▸ hpeel)
  · rename_i op s parts hbinary
    exact eval.comparison (BinaryOp.mem_comparisons_of_isComparison hform) (hbinary ▸ hpeel)
  · rename_i s test consequent alternate hconditional
    simp only [Bool.and_eq_true] at hform
    rcases eval.conditional (hconditional ▸ hpeel) with hc | ha
    · exact eval.isBoolean_of_isLikelyBoolean hform.1 hc
    · exact eval.isBoolean_of_isLikelyBoolean hform.2 ha
  · cases hform

end Evaluation

namespace Node

/-- The expression can hand back a string that is written out in it, through any nesting of
wrappers, logical operators and ternaries. -/
inductive HandsString : Node → Prop
  | literal {value : String} {s : Span} {parts : List Node} :
    HandsString (mk (.stringLiteral value) s parts)
  | template {s : Span} {parts : List Node} : HandsString (mk .template s parts)
  | wrapper {form : Wrapper} {s : Span} {e : Node} {types : List Node} (h : HandsString e) :
    HandsString (mk (.wrapper form) s (e :: types))
  | assertion {s : Span} {type e : Node} {rest : List Node} (h : HandsString e) :
    HandsString (mk .typeAssertion s (type :: e :: rest))
  | left {op : LogicalOp} {s : Span} {left right : Node} (h : HandsString left) :
    HandsString (mk (.logical op) s [left, right])
  | right {op : LogicalOp} {s : Span} {left right : Node} (h : HandsString right) :
    HandsString (mk (.logical op) s [left, right])
  | consequent {s : Span} {test consequent alternate : Node} (h : HandsString consequent) :
    HandsString (mk .conditional s [test, consequent, alternate])
  | alternate {s : Span} {test consequent alternate : Node} (h : HandsString alternate) :
    HandsString (mk .conditional s [test, consequent, alternate])

lemma HandsString.of_peel {e : Node} (h : e.peel.HandsString) : e.HandsString := by
  fun_induction peel e with
  | case1 form s e rest ih => exact .wrapper (ih h)
  | case2 s type e rest ih => exact .assertion (ih h)
  | case3 e => exact h

lemma handsString_of_isPlainString {e : Node} (h : e.isPlainString = true) : e.HandsString := by
  apply HandsString.of_peel
  unfold isPlainString at h
  split at h
  · rename_i value s parts hliteral
    exact hliteral ▸ .literal
  · rename_i s parts htemplate
    exact htemplate ▸ .template
  · cases h

lemma handsString_of_isStringFallback {e : Node} (h : e.isStringFallback = true) :
    e.HandsString := by
  apply HandsString.of_peel
  unfold isStringFallback at h
  split at h
  · rename_i s left right hlogical
    rw [hlogical]
    rcases Bool.or_eq_true_iff.mp h with hleft | hright
    · exact .left (handsString_of_isPlainString hleft)
    · exact .right (handsString_of_isPlainString hright)
  · cases h

end Node

/-- The evaluation in which an expression may yield a boolean, written `true`, whatever it is, and
a string, written `false`, if it can hand one back. -/
def Evaluation.ofStrings : Evaluation Bool where
  yields e v := v = true ∨ e.HandsString
  isBoolean v := v = true
  wrapper h := h.imp_right fun | .wrapper hstring => hstring
  assertion h := h.imp_right fun | .assertion hstring => hstring
  literal h := h.resolve_right nofun
  negation h := h.resolve_right nofun
  comparison _ h := h.resolve_right nofun
  logical h := by
    rcases h with hv | hstring
    · exact Or.inl (Or.inl hv)
    · cases hstring with
      | left hleft => exact Or.inl (Or.inr hleft)
      | right hright => exact Or.inr (Or.inr hright)
  conditional h := by
    rcases h with hv | hstring
    · exact Or.inl (Or.inl hv)
    · cases hstring with
      | consequent hconsequent => exact Or.inl (Or.inr hconsequent)
      | alternate halternate => exact Or.inr (Or.inr halternate)
  identifier _ h := h.resolve_right nofun

namespace Evaluation
variable {Value : Type u} (eval : Evaluation Value)

theorem isBoolean_of_classified {e : Node} {v : Value}
    (hclass : e.isLikelyBoolean = true ∨ e.isDerived = true) (h : eval.yields e v) :
    eval.isBoolean v := by
  rcases hclass with hlikely | hderived
  · exact eval.isBoolean_of_isLikelyBoolean hlikely h
  · exact eval.isBoolean_of_isDerived hderived h

/-- Whatever looks boolean or derives a condition yields booleans only, in every evaluation, so no
expression that can hand back a string is either of the two. -/
theorem classified_yields_booleans (e : Node) :
    (e.isLikelyBoolean = true ∨ e.isDerived = true →
      ∀ v, eval.yields e v → eval.isBoolean v) ∧
    (e.HandsString → e.isLikelyBoolean = false ∧ e.isDerived = false) ∧
    (e.isStringFallback = true → e.HandsString) := by
  refine ⟨fun hclass v h => eval.isBoolean_of_classified hclass h, fun hstring => ?_,
    Node.handsString_of_isStringFallback⟩
  have hnot : ¬ (e.isLikelyBoolean = true ∨ e.isDerived = true) := fun hclass =>
    Bool.noConfusion (ofStrings.isBoolean_of_classified hclass (v := false) (Or.inr hstring))
  simpa using hnot

/-- Written `isOpen ?? (mode ? !x : a < b)`, which is derived, and `mode ? isOpen : (x || 'no')!`,
which is not. -/
theorem classified_yields_booleans_nested :
    let x := Node.mk (.identifier "x") ⟨0, 1⟩ []
    let isOpen := Node.mk (.identifier "isOpen") ⟨0, 6⟩ []
    let derived := Node.mk (.logical .coalesce) ⟨0, 29⟩ [isOpen,
      .mk (.wrapper .parentheses) ⟨10, 29⟩ [.mk .conditional ⟨11, 28⟩ [x,
        .mk (.unary .not) ⟨18, 20⟩ [x], .mk (.binary .less) ⟨23, 28⟩ [x, x]]]]
    let fallback := Node.mk (.logical .or) ⟨17, 26⟩ [x, .mk (.stringLiteral "no") ⟨22, 26⟩ []]
    let titled := Node.mk .conditional ⟨0, 28⟩ [x, isOpen,
      .mk (.wrapper .nonNull) ⟨16, 28⟩ [.mk (.wrapper .parentheses) ⟨16, 27⟩ [fallback]]]
    derived.isDerived = true ∧ ofStrings.yields derived true ∧ ofStrings.isBoolean true ∧
      fallback.HandsString ∧ titled.isLikelyBoolean = false ∧ titled.isDerived = false := by
  intro x isOpen derived fallback titled
  have hderived : derived.isDerived = true := by decide
  have hyields : ofStrings.yields derived true := Or.inl rfl
  have hfallback := (ofStrings.classified_yields_booleans fallback).2.2 (by decide)
  have htitled : titled.HandsString := .alternate (.wrapper (.wrapper hfallback))
  exact ⟨hderived, hyields,
    (ofStrings.classified_yields_booleans derived).1 (Or.inr hderived) true hyields, hfallback,
    (ofStrings.classified_yields_booleans titled).2.1 htitled⟩

end Evaluation

end JsxLint
