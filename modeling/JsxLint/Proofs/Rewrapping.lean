import JsxLint.Component.Function
import JsxLint.Expression.Boolean
import JsxLint.Expression.Complexity
import JsxLint.Expression.Gate
import JsxLint.Expression.Handler
import Mathlib.Logic.Relation

/-! Parentheses and type-only wrappers do not change how an expression is read. Wrappers may be
added and taken away around the whole expression and around every operand in it, at any depth:
also inside functions, templates and optional chains. `bare` is the form without any of these
wrappers; every classifier gives the same answer on an expression and on its bare form. Nothing is
said of wrappers in other places, such as the elements of an array. -/
namespace JsxLint

/-- The part at `index` of a node of this kind is an operand: of an operator, an assignment, a
member or a call. -/
def Kind.hasOperandAt (index : Nat) : Kind → Bool
  | .unary _ | .binary _ | .logical _ | .conditional | .call | .member .computed => true
  | .assignment _ => index ≠ 0
  | .member _ => index = 0
  | _ => false

namespace Node

inductive Wraps (e : Node) : Node → Prop
  | wrapper (form : Wrapper) (s : Span) (types : List Node) :
    Wraps e (mk (.wrapper form) s (e :: types))
  | assertion (s : Span) (type : Node) : Wraps e (mk .typeAssertion s [type, e])

/-- The second tree is the first one with a wrapper around one operand in it. Type arguments stand
among the arguments of a call but are none of them. -/
inductive WrapsOperand : Node → Node → Prop
  | operand {k : Kind} {s : Span} {before after : List Node} {e e' : Node}
    (position : k.hasOperandAt before.length = true) (argument : e.peel.isTypeArguments = false)
    (wraps : e.Wraps e') :
    WrapsOperand (mk k s (before ++ e :: after)) (mk k s (before ++ e' :: after))
  | within {k : Kind} {s : Span} {before after : List Node} {e e' : Node}
    (inner : WrapsOperand e e') :
    WrapsOperand (mk k s (before ++ e :: after)) (mk k s (before ++ e' :: after))

/-- The second expression comes from the first one by adding and taking away wrappers, any number
of them, around the whole and around the operands in it. -/
def Rewraps : Node → Node → Prop :=
  Relation.EqvGen fun e e' => e.Wraps e' ∨ WrapsOperand e e'

def unwrapped (e : Node) : Node :=
  if e.peel.isTypeArguments then e else e.peel

end Node

def Kind.unwrapOperands : Kind → List Node → List Node
  | .unary _, parts | .binary _, parts | .logical _, parts | .conditional, parts
  | .member .computed, parts | .call, parts => parts.map Node.unwrapped
  | .assignment _, target :: right => target :: right.map Node.unwrapped
  | .member _, object :: rest => object.unwrapped :: rest
  | _, parts => parts

mutual

/-- The tree without wrappers around the operands in it. -/
def Node.stripped : Node → Node
  | .mk k s parts => .mk k s (k.unwrapOperands (strippedAll parts))

def strippedAll : List Node → List Node
  | [] => []
  | e :: es => e.stripped :: strippedAll es

end

/-- The expression without wrappers around the whole and around the operands in it. -/
def Node.bare (e : Node) : Node :=
  e.stripped.peel

@[simp] lemma Node.stripped_mk (k : Kind) (s : Span) (parts : List Node) :
    (Node.mk k s parts).stripped = .mk k s (k.unwrapOperands (strippedAll parts)) := by
  rw [Node.stripped]

@[simp] lemma strippedAll_eq_map (es : List Node) : strippedAll es = es.map Node.stripped := by
  induction es with
  | nil => rw [strippedAll, List.map_nil]
  | cons e es ih => rw [strippedAll, ih, List.map_cons]

namespace Node

lemma kind_stripped (e : Node) : e.stripped.kind = e.kind := by
  obtain ⟨k, s, parts⟩ := e
  rw [stripped_mk, kind_mk, kind_mk]

lemma span_stripped (e : Node) : e.stripped.span = e.span := by
  obtain ⟨k, s, parts⟩ := e
  rw [stripped_mk, span_mk, span_mk]

def isWrapped : Node → Bool
  | mk (.wrapper _) _ (_ :: _) => true
  | mk .typeAssertion _ (_ :: _ :: _) => true
  | _ => false

/-- A wrapper is peeled like the expression in it. -/
lemma exists_part_of_isWrapped {k : Kind} {s : Span} {parts : List Node}
    (h : (mk k s parts).isWrapped = true) : ∃ e ∈ parts, (mk k s parts).peel = e.peel := by
  cases k <;> try cases h
  case wrapper =>
    rcases parts with _ | ⟨e, rest⟩
    · cases h
    · exact ⟨e, by simp, by simp⟩
  case typeAssertion =>
    rcases parts with _ | ⟨type, _ | ⟨e, rest⟩⟩
    · cases h
    · cases h
    · exact ⟨e, by simp, by simp⟩

/-- What holds of a node if it holds of its parts holds of every node. -/
theorem induction {motive : Node → Prop}
    (node : ∀ k s parts, (∀ e ∈ parts, motive e) → motive (mk k s parts)) : ∀ e, motive e
  | mk k s parts => node k s parts fun e _ => induction node e

lemma peel_stripped (e : Node) : e.stripped.peel = e.peel.stripped := by
  fun_induction peel e with
  | case1 form s e rest ih => simpa [Kind.unwrapOperands] using ih
  | case2 s type e rest ih => simpa [Kind.unwrapOperands] using ih
  | case3 e hwrapper hassertion =>
    obtain ⟨k, s, parts⟩ := e
    cases k <;> try rfl
    case wrapper =>
      rcases parts with _ | ⟨e, rest⟩
      · rfl
      · exact (hwrapper _ _ _ _ rfl).elim
    case typeAssertion =>
      rcases parts with _ | ⟨type, _ | ⟨e, rest⟩⟩
      · rfl
      · rfl
      · exact (hassertion _ _ _ _ rfl).elim

section Reading
variable {β : Type} {f : Node → β}

lemma read_peel
    (hwrapper : ∀ form s e types, f (mk (.wrapper form) s (e :: types)) = f e)
    (hassertion : ∀ s type e rest, f (mk .typeAssertion s (type :: e :: rest)) = f e) (e : Node) :
    f e.peel = f e := by
  fun_induction peel e with
  | case1 form s e rest ih => rw [ih, hwrapper]
  | case2 s type e rest ih => rw [ih, hassertion]
  | case3 e => rfl

/-- A function that looks through wrappers reads an operand as it reads it without them. -/
lemma read_unwrapped (hpeel : ∀ e, f e.peel = f e) (e : Node) : f e.unwrapped = f e := by
  unfold unwrapped
  split
  · rfl
  · exact hpeel e

/-- A function that looks through wrappers and reads a node off its parts gives on a stripped tree
what it gives on the tree, up to `g`. -/
theorem read_stripped {g : β → β} (hpeel : ∀ e, f e.peel = f e)
    (hnode : ∀ k s parts, (mk k s parts).isWrapped = false →
      (∀ e ∈ parts, f e.stripped = g (f e)) → f (mk k s parts).stripped = g (f (mk k s parts)))
    (e : Node) : f e.stripped = g (f e) := by
  induction e using induction with
  | node k s parts ih =>
    cases hwrapped : (mk k s parts).isWrapped with
    | false => exact hnode k s parts hwrapped ih
    | true =>
      obtain ⟨e, hmem, hpeels⟩ := exists_part_of_isWrapped hwrapped
      calc f (mk k s parts).stripped
        _ = f (mk k s parts).peel.stripped := by rw [← hpeel, peel_stripped]
        _ = f e.stripped := by rw [hpeels, ← peel_stripped, hpeel]
        _ = g (f e) := ih e hmem
        _ = g (f (mk k s parts)) := by rw [← hpeel e, ← hpeels, hpeel]

end Reading

lemma isBoolean_peel (e : Node) : e.peel.isBoolean = e.isBoolean :=
  read_peel (by simp [isBoolean]) (by simp [isBoolean]) e

lemma isBoolean_stripped (e : Node) : e.stripped.isBoolean = e.isBoolean := by
  apply read_stripped (g := id) isBoolean_peel
  intro k s parts hbare ih
  cases k <;> try rfl
  case wrapper | typeAssertion => rcases parts with _ | ⟨_, _ | _⟩ <;> first | rfl | cases hbare
  case conditional =>
    rcases parts with _ | ⟨test, _ | ⟨consequent, _ | ⟨alternate, _ | ⟨next, rest⟩⟩⟩⟩ <;> try rfl
    simp [isBoolean, Kind.unwrapOperands, read_unwrapped isBoolean_peel, ih]

lemma isLikelyBoolean_peel (e : Node) : e.peel.isLikelyBoolean = e.isLikelyBoolean :=
  read_peel (by simp [isLikelyBoolean]) (by simp [isLikelyBoolean]) e

lemma isLikelyBoolean_stripped (e : Node) : e.stripped.isLikelyBoolean = e.isLikelyBoolean := by
  apply read_stripped (g := id) isLikelyBoolean_peel
  intro k s parts hbare ih
  cases k <;> try rfl
  case wrapper | typeAssertion => rcases parts with _ | ⟨_, _ | _⟩ <;> first | rfl | cases hbare
  case logical op =>
    rcases parts with _ | ⟨left, _ | ⟨right, _ | ⟨next, rest⟩⟩⟩ <;> try rfl
    simp [isLikelyBoolean, Kind.unwrapOperands, read_unwrapped isLikelyBoolean_peel, ih]
  case conditional =>
    rcases parts with _ | ⟨test, _ | ⟨consequent, _ | ⟨alternate, _ | ⟨next, rest⟩⟩⟩⟩ <;> try rfl
    simp [isLikelyBoolean, Kind.unwrapOperands, read_unwrapped isLikelyBoolean_peel, ih]

lemma gatingNames_peel (e : Node) : e.peel.gatingNames = e.gatingNames :=
  read_peel (by simp [gatingNames]) (by simp [gatingNames]) e

lemma gatingNames_stripped (e : Node) : e.stripped.gatingNames = e.gatingNames := by
  apply read_stripped (g := id) gatingNames_peel
  intro k s parts hbare ih
  cases k <;> try rfl
  case wrapper | typeAssertion => rcases parts with _ | ⟨_, _ | _⟩ <;> first | rfl | cases hbare
  case unary op =>
    rcases parts with _ | ⟨operand, rest⟩ <;> try rfl
    simp [gatingNames, Kind.unwrapOperands, read_unwrapped gatingNames_peel, ih]
  case logical op =>
    rcases parts with _ | ⟨left, _ | ⟨right, _ | ⟨next, rest⟩⟩⟩ <;> try rfl
    simp [gatingNames, Kind.unwrapOperands, read_unwrapped gatingNames_peel, ih]

lemma terms_peel (e : Node) : e.peel.terms = e.terms :=
  read_peel (by simp [terms]) (by simp [terms]) e

lemma termsAll_map {h : Node → Node} {es : List Node}
    (hterms : ∀ e ∈ es, (h e).terms = e.terms.map stripped) :
    termsAll (es.map h) = (termsAll es).map stripped := by
  induction es with
  | nil => simp [termsAll]
  | cons e es ih =>
    have hrest := ih fun e' he' => hterms e' (List.mem_cons_of_mem e he')
    simp [termsAll, hterms e List.mem_cons_self, hrest]

/-- The terms of a stripped expression are the stripped terms. -/
lemma terms_stripped (e : Node) : e.stripped.terms = e.terms.map stripped := by
  apply read_stripped (g := List.map stripped) terms_peel
  intro k s parts hbare ih
  have hoperand : ∀ e ∈ parts, ((unwrapped ∘ stripped) e).terms = e.terms.map stripped := by
    intro e he
    exact (read_unwrapped terms_peel e.stripped).trans (ih e he)
  cases k <;> try rfl
  case wrapper | typeAssertion => rcases parts with _ | ⟨_, _ | _⟩ <;> first | rfl | cases hbare
  case unary | binary | logical | conditional =>
    simp [terms, Kind.unwrapOperands, termsAll_map hoperand]
  case assignment op =>
    rcases parts with _ | ⟨target, right⟩
    · rfl
    · simp [terms, Kind.unwrapOperands,
        termsAll_map fun e he => hoperand e (List.mem_cons_of_mem target he)]
  case call =>
    rcases parts with _ | ⟨callee, arguments⟩
    · rfl
    · simp [terms, Kind.unwrapOperands,
        termsAll_map fun e he => hoperand e (List.mem_cons_of_mem callee he)]
  case member access =>
    cases access with
    | computed => simp [terms, Kind.unwrapOperands, termsAll_map hoperand]
    | named | hidden =>
      rcases parts with _ | ⟨object, rest⟩
      · rfl
      · have hobject := hoperand object List.mem_cons_self
        have hrest := termsAll_map fun e he => ih e (List.mem_cons_of_mem object he)
        rw [Function.comp_apply] at hobject
        simp [terms, termsAll, Kind.unwrapOperands, hobject, hrest]

lemma isLogicalOperator_stripped (e : Node) :
    e.stripped.isLogicalOperator = e.isLogicalOperator := by
  obtain ⟨k, s, parts⟩ := e
  cases k <;> try rfl
  case assignment op => cases op <;> rfl

lemma isLogicalAssignment_stripped (e : Node) :
    e.stripped.isLogicalAssignment = e.isLogicalAssignment := by
  obtain ⟨k, s, parts⟩ := e
  cases k <;> try rfl
  case assignment op => cases op <;> rfl

lemma isTemplate_stripped (e : Node) : e.stripped.isTemplate = e.isTemplate := by
  obtain ⟨k, s, parts⟩ := e
  cases k <;> rfl

lemma isTemplateText_stripped (e : Node) : e.stripped.isTemplateText = e.isTemplateText := by
  obtain ⟨k, s, parts⟩ := e
  cases k <;> rfl

lemma isTypeArguments_stripped (e : Node) : e.stripped.isTypeArguments = e.isTypeArguments := by
  obtain ⟨k, s, parts⟩ := e
  cases k <;> rfl

lemma peel_bare (e : Node) : e.bare.peel = e.peel.stripped := by
  rw [bare, peel_peel, peel_stripped]

lemma isPlainString_peel (e : Node) : e.peel.isPlainString = e.isPlainString := by
  unfold isPlainString
  rw [peel_peel]

lemma isPlainString_stripped (e : Node) : e.stripped.isPlainString = e.isPlainString := by
  unfold isPlainString
  rw [peel_stripped]
  obtain ⟨k, s, parts⟩ := e.peel
  cases k <;> try rfl
  case template => simp [Kind.unwrapOperands, Function.comp_def, isTemplateText_stripped]

lemma isStringFallback_bare (e : Node) : e.bare.isStringFallback = e.isStringFallback := by
  unfold isStringFallback
  rw [peel_bare]
  obtain ⟨k, s, parts⟩ := e.peel
  cases k <;> try rfl
  case logical op =>
    cases op <;> try rfl
    rcases parts with _ | ⟨left, _ | ⟨right, _ | ⟨next, rest⟩⟩⟩ <;> try rfl
    simp [Kind.unwrapOperands, read_unwrapped isPlainString_peel, isPlainString_stripped]

lemma isDerived_bare (e : Node) : e.bare.isDerived = e.isDerived := by
  unfold isDerived
  rw [isStringFallback_bare, peel_bare]
  obtain ⟨k, s, parts⟩ := e.peel
  cases k <;> try rfl
  case logical op =>
    rcases parts with _ | ⟨left, _ | ⟨right, _ | ⟨next, rest⟩⟩⟩ <;> try rfl
    simp [Kind.unwrapOperands, read_unwrapped isLikelyBoolean_peel, isLikelyBoolean_stripped]
  case conditional =>
    rcases parts with _ | ⟨test, _ | ⟨consequent, _ | ⟨alternate, _ | ⟨next, rest⟩⟩⟩⟩ <;> try rfl
    simp [Kind.unwrapOperands, read_unwrapped isLikelyBoolean_peel, isLikelyBoolean_stripped]

lemma isCombiningLogical_bare (e : Node) : e.bare.isCombiningLogical = e.isCombiningLogical := by
  unfold isCombiningLogical
  rw [isStringFallback_bare, peel_bare]
  obtain ⟨k, s, parts⟩ := e.peel
  cases k <;> rfl

lemma calleeName?_peel (e : Node) : e.peel.calleeName? = e.calleeName? := by
  unfold calleeName?
  rw [peel_peel]

lemma calleeName?_stripped (e : Node) : e.stripped.calleeName? = e.calleeName? := by
  unfold calleeName?
  rw [peel_stripped]
  obtain ⟨k, s, parts⟩ := e.peel
  cases k <;> try rfl
  case member access =>
    cases access <;> try rfl
    rcases parts with _ | ⟨object, _ | ⟨⟨k, s', parts⟩, _ | ⟨next, rest⟩⟩⟩ <;> try rfl
    all_goals cases k <;> rfl

lemma isTypeArguments_unwrapped (e : Node) :
    e.unwrapped.isTypeArguments = e.isTypeArguments := by
  unfold unwrapped
  split
  · rfl
  · rename_i h
    cases htype : e.isTypeArguments with
    | false => simpa using h
    | true =>
      obtain ⟨k, s, parts⟩ := e
      cases k <;> cases htype
      exact absurd rfl h

lemma firstIsHandlerShaped_cons (e : Node) (es : List Node) :
    firstIsHandlerShaped (e :: es) =
      if e.isTypeArguments then firstIsHandlerShaped es else e.isHandlerShaped := by
  obtain ⟨k, s, parts⟩ := e
  cases k <;> simp [firstIsHandlerShaped, isTypeArguments]

lemma isHandlerShaped_peel (e : Node) : e.peel.isHandlerShaped = e.isHandlerShaped :=
  read_peel (by simp [isHandlerShaped]) (by simp [isHandlerShaped]) e

lemma firstIsHandlerShaped_map {es : List Node}
    (h : ∀ e ∈ es, e.stripped.isHandlerShaped = e.isHandlerShaped) :
    firstIsHandlerShaped (es.map (unwrapped ∘ stripped)) = firstIsHandlerShaped es := by
  induction es with
  | nil => rfl
  | cons e es ih =>
    rw [List.map_cons, firstIsHandlerShaped_cons, firstIsHandlerShaped_cons, Function.comp_apply,
      isTypeArguments_unwrapped, isTypeArguments_stripped, read_unwrapped isHandlerShaped_peel,
      h e List.mem_cons_self, ih fun e' he' => h e' (List.mem_cons_of_mem e he')]

lemma isHandlerShaped_stripped (e : Node) : e.stripped.isHandlerShaped = e.isHandlerShaped := by
  apply read_stripped (g := id) isHandlerShaped_peel
  intro k s parts hbare ih
  cases k <;> try rfl
  case wrapper | typeAssertion => rcases parts with _ | ⟨_, _ | _⟩ <;> first | rfl | cases hbare
  case call =>
    rcases parts with _ | ⟨callee, rest⟩
    · rfl
    · have hrest := firstIsHandlerShaped_map fun e he => ih e (List.mem_cons_of_mem callee he)
      simp [isHandlerShaped, Kind.unwrapOperands, read_unwrapped calleeName?_peel,
        calleeName?_stripped, hrest]

lemma functionIn?_peel (e : Node) : e.peel.functionIn? = e.functionIn? :=
  read_peel functionIn?_wrapper functionIn?_typeAssertion e

lemma findSome?_functionIn?_map {es : List Node}
    (h : ∀ e ∈ es, e.stripped.functionIn? = e.functionIn?.map stripped) :
    (es.map (unwrapped ∘ stripped)).findSome? functionIn? =
      (es.findSome? functionIn?).map stripped := by
  induction es with
  | nil => rfl
  | cons e es ih =>
    have hes := ih fun e' he' => h e' (List.mem_cons_of_mem e he')
    rw [List.map_cons, List.findSome?_cons, List.findSome?_cons, Function.comp_apply,
      read_unwrapped functionIn?_peel, h e List.mem_cons_self, hes]
    cases e.functionIn? <;> rfl

lemma functionIn?_stripped (e : Node) : e.stripped.functionIn? = e.functionIn?.map stripped := by
  apply read_stripped (g := Option.map stripped) functionIn?_peel
  intro k s parts hbare ih
  cases k
  case wrapper =>
    rcases parts with _ | ⟨e, rest⟩
    · simp [functionIn?, firstFunction?, Kind.unwrapOperands]
    · cases hbare
  case typeAssertion =>
    rcases parts with _ | ⟨type, _ | ⟨e, rest⟩⟩
    · simp [functionIn?, firstFunction?, Kind.unwrapOperands]
    · simp [functionIn?, firstFunction?, Kind.unwrapOperands]
    · cases hbare
  case call =>
    rcases parts with _ | ⟨callee, rest⟩
    · simp [functionIn?, firstFunction?, Kind.unwrapOperands]
    · have hrest := findSome?_functionIn?_map fun e he => ih e (List.mem_cons_of_mem callee he)
      simp [Kind.unwrapOperands, functionIn?_call, hrest]
  all_goals simp [functionIn?, firstFunction?]

structure Reading where
  isBoolean : Bool
  isLikelyBoolean : Bool
  isDerived : Bool
  isStringFallback : Bool
  isCombiningLogical : Bool
  isHandlerShaped : Bool
  /-- Whether giving it a name declares a derived condition. -/
  isDerivedCandidate : (name : String) → Bool
  logicalOperatorCount : Nat
  hasTemplate : Bool
  hasLogicalAssignment : Bool
  gatingNames : List String
  /-- What kind of function it stands for, and where that function is. -/
  function? : Option (Kind × Span)

def reading (e : Node) : Reading where
  isBoolean := e.isBoolean
  isLikelyBoolean := e.isLikelyBoolean
  isDerived := e.isDerived
  isStringFallback := e.isStringFallback
  isCombiningLogical := e.isCombiningLogical
  isHandlerShaped := e.isHandlerShaped
  isDerivedCandidate name := isDerivedCandidate name e
  logicalOperatorCount := e.logicalOperatorCount
  hasTemplate := e.hasTemplate
  hasLogicalAssignment := e.hasLogicalAssignment
  gatingNames := e.gatingNames
  function? := e.functionIn?.map fun f => (f.kind, f.span)

lemma terms_bare (e : Node) : e.bare.terms = e.terms.map stripped :=
  (terms_peel _).trans (terms_stripped e)

lemma functionIn?_bare (e : Node) : e.bare.functionIn? = e.functionIn?.map stripped :=
  (functionIn?_peel _).trans (functionIn?_stripped e)

theorem reading_bare (e : Node) : e.bare.reading = e.reading := by
  have hboolean : e.bare.isBoolean = e.isBoolean :=
    (isBoolean_peel _).trans (isBoolean_stripped e)
  have hlikely : e.bare.isLikelyBoolean = e.isLikelyBoolean :=
    (isLikelyBoolean_peel _).trans (isLikelyBoolean_stripped e)
  have hhandler : e.bare.isHandlerShaped = e.isHandlerShaped :=
    (isHandlerShaped_peel _).trans (isHandlerShaped_stripped e)
  have hnames : e.bare.gatingNames = e.gatingNames :=
    (gatingNames_peel _).trans (gatingNames_stripped e)
  simp only [reading, Node.isDerivedCandidate, Node.logicalOperatorCount, Node.hasTemplate,
    Node.hasLogicalAssignment, hboolean, hlikely, hhandler, hnames, isDerived_bare,
    isStringFallback_bare, isCombiningLogical_bare, terms_bare, functionIn?_bare, List.countP_map,
    List.any_map, Option.map_map, Function.comp_def, isLogicalOperator_stripped,
    isLogicalAssignment_stripped, isTemplate_stripped, kind_stripped, span_stripped]

lemma Wraps.peel_eq {e e' : Node} (h : e.Wraps e') : e'.peel = e.peel := by
  cases h with
  | wrapper form s types => exact peel_wrapper form s e types
  | assertion s type => exact peel_typeAssertion s type e []

lemma Wraps.bare_eq {e e' : Node} (h : e.Wraps e') : e'.bare = e.bare := by
  rw [bare, bare, peel_stripped, peel_stripped, h.peel_eq]

/-- The wrapper around an operand is not there any more once the operands are unwrapped. -/
lemma unwrapOperands_append {k : Kind} {before after : List Node} {e e' : Node}
    (position : k.hasOperandAt before.length = true) (h : e.unwrapped = e'.unwrapped) :
    k.unwrapOperands (before ++ e :: after) = k.unwrapOperands (before ++ e' :: after) := by
  cases k <;> try cases position
  case unary | binary | logical | conditional | call => simp [Kind.unwrapOperands, h]
  case assignment op =>
    rcases before with _ | ⟨target, before⟩
    · cases position
    · simp [Kind.unwrapOperands, h]
  case member access =>
    cases access with
    | computed => simp [Kind.unwrapOperands, h]
    | named | hidden =>
      rcases before with _ | ⟨object, before⟩
      · simp [Kind.unwrapOperands, h]
      · cases position

lemma WrapsOperand.stripped_eq {e e' : Node} (h : WrapsOperand e e') :
    e.stripped = e'.stripped := by
  induction h with
  | @operand k s before after e e' position argument wraps =>
    have htype : e.stripped.peel.isTypeArguments = false := by
      rw [peel_stripped, isTypeArguments_stripped, argument]
    have hpeel : e'.stripped.peel = e.stripped.peel := by
      rw [peel_stripped, peel_stripped, wraps.peel_eq]
    have hsame : e.stripped.unwrapped = e'.stripped.unwrapped := by
      simp [unwrapped, hpeel, htype]
    simp only [stripped_mk, strippedAll_eq_map, List.map_append, List.map_cons]
    rw [unwrapOperands_append (by simpa using position) hsame]
  | within inner ih => simp [ih]

lemma Rewraps.bare_eq {e e' : Node} (h : e.Rewraps e') : e.bare = e'.bare := by
  induction h with
  | rel e e' step =>
    rcases step with whole | inside
    · exact whole.bare_eq.symm
    · rw [bare, bare, inside.stripped_eq]
  | refl e => rfl
  | symm e e' _ ih => exact ih.symm
  | trans e e' e'' _ _ ih ih' => exact ih.trans ih'

/-- Wrappers around an expression and the operands in it do not change how it is read, nor which
function is found in it. -/
theorem reading_eq_of_rewraps {e e' : Node} (h : e.Rewraps e') : e.reading = e'.reading :=
  calc e.reading
    _ = e.bare.reading := (reading_bare e).symm
    _ = e'.bare.reading := by rw [h.bare_eq]
    _ = e'.reading := reading_bare e'

/-- Written `hook(() => left && b)`, with the argument as given by `around`. -/
def hookCall (hook left : Node) (around : Node → Node) : Node :=
  mk .call ⟨0, 40⟩ [hook, around (mk .arrow ⟨13, 25⟩ [mk .parameters ⟨13, 15⟩ [],
    mk .functionBody ⟨19, 25⟩ [mk (.other "ExpressionStatement") ⟨19, 25⟩ [
      mk (.logical .and) ⟨19, 25⟩ [left, mk (.identifier "b") ⟨24, 25⟩ []]]]])]

/-- From `useCallback((() => a && b) as Handler)` to `(useCallback)(() => a! && b)`. -/
theorem reading_eq_of_rewraps_hookCall :
    let hook := mk (.identifier "useCallback") ⟨0, 11⟩ []
    let name := mk (.identifier "a") ⟨19, 20⟩ []
    let parenthesized := fun e => mk (.wrapper .parentheses) ⟨0, 0⟩ [e]
    let cast := fun e => mk (.wrapper .asType) ⟨12, 37⟩ [e, mk .typeReference ⟨30, 37⟩ []]
    let nonNull := fun e => mk (.wrapper .nonNull) ⟨19, 21⟩ [e]
    let before := hookCall hook name (cast ∘ parenthesized)
    let after := hookCall (parenthesized hook) (nonNull name) id
    before.Rewraps after ∧ before.reading = after.reading ∧ after.reading.isHandlerShaped = true ∧
      after.reading.function? = some (.arrow, ⟨13, 25⟩) := by
  intro hook name parenthesized cast nonNull before after
  have huncast : (hookCall hook name parenthesized).Rewraps before :=
    .rel _ _ (.inr (@WrapsOperand.operand _ _ [hook] [] _ _ rfl rfl (.wrapper _ _ _)))
  have hunparen : (hookCall hook name id).Rewraps (hookCall hook name parenthesized) :=
    .rel _ _ (.inr (@WrapsOperand.operand _ _ [hook] [] _ _ rfl rfl (.wrapper _ _ _)))
  have hcallee : (hookCall hook name id).Rewraps (hookCall (parenthesized hook) name id) :=
    .rel _ _ (.inr (@WrapsOperand.operand _ _ [] [_] _ _ rfl rfl (.wrapper _ _ _)))
  have hbody : (hookCall (parenthesized hook) name id).Rewraps after :=
    .rel _ _ (.inr (@WrapsOperand.within _ _ [_] [] _ _ (@WrapsOperand.within _ _ [_] [] _ _
      (@WrapsOperand.within _ _ [] [] _ _ (@WrapsOperand.within _ _ [] [] _ _
        (@WrapsOperand.operand _ _ [] [_] _ _ rfl rfl (.wrapper _ _ _)))))))
  have hrewraps : before.Rewraps after :=
    .trans _ _ _ (.symm _ _ (.trans _ _ _ hunparen huncast)) (.trans _ _ _ hcallee hbody)
  refine ⟨hrewraps, reading_eq_of_rewraps hrewraps, by decide, ?_⟩
  simp [after, hookCall, reading, functionIn?, firstFunction?]

end Node

end JsxLint
