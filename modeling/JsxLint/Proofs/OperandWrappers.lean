import JsxLint.Proofs.Rewrapping
import Mathlib.Data.List.Forall2
import Mathlib.Data.Nat.Basic
import Mathlib.Order.Lattice

/-! Wrappers and the complexity of operands. Taking wrappers away, at any depth, leaves member
depth, operand complexity and the verdict on a condition as they are, with one exception: a wrapper
that an optional chain holds directly, as in `a?.b.c!`, hides the member or the call in it. Taking
such a wrapper away can only raise what is found. -/
namespace JsxLint.Node

/-- The second tree is the first one without some of its wrappers, at any depth and up to places.
Unless `opens`, what an optional chain holds is a wrapper after as before. -/
inductive Sheds (opens : Bool) : Node → Node → Prop
  | off {w e e' : Node} (wraps : e.Wraps w) (expression : e.isTypeArguments = false)
    (inner : Sheds opens e e') : Sheds opens w e'
  | within {k : Kind} {s s' : Span} {parts parts' : List Node}
    (each : List.Forall₂ (Sheds opens) parts parts')
    (closed : opens = false → k = .chain → parts.map isWrapped = parts'.map isWrapped) :
    Sheds opens (mk k s parts) (mk k s' parts')

lemma Wraps.isWrapped_eq {e w : Node} (h : e.Wraps w) : w.isWrapped = true := by
  cases h <;> rfl

namespace Sheds
variable {opens : Bool}

/-- What holds of a wrapper if it holds of the expression in it, and of a node if it holds of its
parts, holds of every tree and what it becomes. -/
theorem induction {motive : (e e' : Node) → e.Sheds opens e' → Prop}
    (off : ∀ {w e e'} (wraps : e.Wraps w) (expression : e.isTypeArguments = false)
      (inner : e.Sheds opens e'), motive e e' inner → motive w e' (.off wraps expression inner))
    (within : ∀ {k s s' parts parts'} (each : List.Forall₂ (Sheds opens) parts parts')
      (closed : opens = false → k = .chain → parts.map isWrapped = parts'.map isWrapped),
      List.Forall₂ (fun e e' => ∃ h : e.Sheds opens e', motive e e' h) parts parts' →
      motive (mk k s parts) (mk k s' parts') (.within each closed)) {e e' : Node}
    (h : e.Sheds opens e') : motive e e' h := by
  induction e using Node.induction generalizing e' with
  | node k s parts ih =>
    cases h with
    | off wraps expression inner =>
      refine off wraps expression inner ?_
      cases wraps with
      | wrapper form s types => exact ih _ (by simp) inner
      | assertion s type => exact ih _ (by simp) inner
    | within each closed =>
      refine within each closed ?_
      clear closed
      induction each with
      | nil => exact .nil
      | cons first _ ihrest =>
        exact .cons ⟨first, ih _ List.mem_cons_self first⟩
          (ihrest fun e he => ih e (List.mem_cons_of_mem _ he))

lemma refl (e : Node) : e.Sheds opens e := by
  induction e using Node.induction with
  | node k s parts ih => exact .within (List.forall₂_same.mpr ih) fun _ _ => rfl

lemma kind_eq {e e' : Node} (h : e.Sheds opens e') (hbare : e.isWrapped = false) :
    e'.kind = e.kind := by
  cases h with
  | off wraps => rw [wraps.isWrapped_eq] at hbare; cases hbare
  | within => rfl

lemma isTypeArguments_eq {e e' : Node} (h : e.Sheds opens e') :
    e'.isTypeArguments = e.isTypeArguments := by
  induction h using Sheds.induction with
  | off wraps expression _ ih =>
    rw [ih, expression]
    cases wraps <;> rfl
  | @within k => cases k <;> rfl

/-- A relation that looks through wrappers, and that holds of nodes if it holds of their parts,
holds of every tree and what it becomes. -/
theorem transfer (R : Node → Node → Prop) (hpeel : ∀ e e', R e.peel e'.peel ↔ R e e')
    (node : ∀ {k s s' parts parts'}, (mk k s parts).isWrapped = false →
      (opens = false → k = .chain → parts.map isWrapped = parts'.map isWrapped) →
      List.Forall₂ (fun e e' => e.Sheds opens e' ∧ R e e') parts parts' →
      R (mk k s parts) (mk k s' parts')) {e e' : Node} (h : e.Sheds opens e') : R e e' := by
  induction h using Sheds.induction with
  | off wraps _ _ ih => rwa [← hpeel, wraps.peel_eq, hpeel]
  | @within k s s' parts parts' each closed ih =>
    cases hwrapped : (mk k s parts).isWrapped with
    | false => exact node hwrapped closed (ih.imp fun e e' h => ⟨h.1, h.2⟩)
    | true =>
      rw [← hpeel]
      cases k <;> try cases hwrapped
      case wrapper =>
        cases ih with
        | nil => cases hwrapped
        | cons first _ => simpa [hpeel] using first.2
      case typeAssertion =>
        rcases ih with _ | ⟨-, _ | ⟨⟨-, hsecond⟩, -⟩⟩
        · cases hwrapped
        · cases hwrapped
        · simpa [hpeel] using hsecond

lemma kinds_termsAll_eq {es es' : List Node}
    (h : List.Forall₂ (fun e e' => e.terms.map kind = e'.terms.map kind) es es') :
    (termsAll es).map kind = (termsAll es').map kind := by
  induction h with
  | nil => rfl
  | cons first _ ih => simp only [termsAll, List.map_append, first, ih]

/-- The terms of a condition stay, each with its kind. -/
lemma kinds_terms_eq {e e' : Node} (h : e.Sheds opens e') :
    e.terms.map kind = e'.terms.map kind := by
  refine transfer (fun e e' => e.terms.map kind = e'.terms.map kind)
    (fun e e' => by rw [terms_peel, terms_peel]) (fun {k _ _ _ _} hbare _ ih => ?_) h
  have hparts := ih.imp fun e e' h => h.2
  cases k <;> try rfl
  case wrapper | typeAssertion => rcases ih with _ | ⟨-, _ | -⟩ <;> first | rfl | cases hbare
  case unary | binary | logical | conditional | member =>
    simpa [terms] using kinds_termsAll_eq hparts
  case assignment | call =>
    cases hparts with
    | nil => rfl
    | cons _ rest => simpa [terms] using kinds_termsAll_eq rest

section Measures
variable {p : Node → Bool} (hkind : ∀ {e e' : Node}, e.kind = e'.kind → p e = p e')
include hkind

lemma comp_kind_eq : p = (fun k => p (mk k ⟨0, 0⟩ [])) ∘ kind := by
  funext e
  exact hkind rfl

lemma countP_terms_eq {e e' : Node} (h : e.Sheds opens e') :
    e.terms.countP p = e'.terms.countP p := by
  rw [comp_kind_eq hkind, ← List.countP_map, ← List.countP_map, h.kinds_terms_eq]

lemma any_terms_eq {e e' : Node} (h : e.Sheds opens e') : e.terms.any p = e'.terms.any p := by
  rw [comp_kind_eq hkind, ← List.any_map, ← List.any_map, h.kinds_terms_eq]

end Measures

lemma logicalOperatorCount_eq {e e' : Node} (h : e.Sheds opens e') :
    e.logicalOperatorCount = e'.logicalOperatorCount :=
  h.countP_terms_eq isLogicalOperator_congr

lemma hasTemplate_eq {e e' : Node} (h : e.Sheds opens e') : e.hasTemplate = e'.hasTemplate :=
  h.any_terms_eq isTemplate_congr

lemma hasLogicalAssignment_eq {e e' : Node} (h : e.Sheds opens e') :
    e.hasLogicalAssignment = e'.hasLogicalAssignment :=
  h.any_terms_eq isLogicalAssignment_congr

end Sheds

lemma memberDepth_peel (e : Node) : e.peel.memberDepth = e.memberDepth :=
  read_peel (by simp [memberDepth]) (by simp [memberDepth]) e

lemma isComplexOperand_peel (e : Node) : e.peel.isComplexOperand = e.isComplexOperand :=
  read_peel (by simp [isComplexOperand]) (by simp [isComplexOperand]) e

lemma chainOperands_peel (op : LogicalOp) (whole e : Node) :
    chainOperands op whole e.peel = chainOperands op whole e :=
  read_peel (by simp [chainOperands]) (by simp [chainOperands]) e

lemma logicalOperands_peel (e : Node) : e.peel.logicalOperands = e.logicalOperands := by
  rw [logicalOperands, peel_peel, logicalOperands]

lemma ternaryTest?_peel (e : Node) : e.peel.ternaryTest? = e.ternaryTest? := by
  rw [ternaryTest?, peel_peel, ternaryTest?]

def isMember (e : Node) : Bool :=
  match e.kind with
  | .member _ => true
  | _ => false

def isCall (e : Node) : Bool :=
  match e.kind with
  | .call => true
  | _ => false

/-- An optional chain is as deep as the member that it holds directly. -/
lemma memberDepth_chain (s : Span) (x : Node) :
    (mk .chain s [x]).memberDepth = if x.isMember then x.memberDepth else 0 := by
  obtain ⟨k, s', parts⟩ := x
  cases k <;> try rfl
  case member => cases parts <;> simp [memberDepth, isMember]

/-- An optional chain is as complex as the call that it holds directly. -/
lemma isComplexOperand_chain (s : Span) (x : Node) :
    (mk .chain s [x]).isComplexOperand =
      if x.isCall then x.isComplexOperand else (mk .chain s [x]).isDeepMember := by
  obtain ⟨k, s', parts⟩ := x
  cases k <;> rfl

lemma isMember_of_isWrapped {e : Node} (h : e.isWrapped = true) : e.isMember = false := by
  obtain ⟨k, s, parts⟩ := e
  cases k <;> first | rfl | cases h

lemma isCall_of_isWrapped {e : Node} (h : e.isWrapped = true) : e.isCall = false := by
  obtain ⟨k, s, parts⟩ := e
  cases k <;> first | rfl | cases h

/-- Under a wrapper, an optional chain does not see what it holds. -/
lemma memberDepth_chain_of_isWrapped (s : Span) {w : Node} (h : w.isWrapped = true) :
    (mk .chain s [w]).memberDepth = 0 := by
  rw [memberDepth_chain, isMember_of_isWrapped h, if_neg Bool.false_ne_true]

lemma isComplexOperand_chain_of_isWrapped (s : Span) {w : Node} (h : w.isWrapped = true) :
    (mk .chain s [w]).isComplexOperand = false := by
  rw [isComplexOperand_chain, isCall_of_isWrapped h, if_neg Bool.false_ne_true, isDeepMember,
    memberDepth_chain_of_isWrapped s h]
  rfl

/-- The second value is at least the first one, and the same unless chains are opened. -/
def Rises {α : Type} [Preorder α] (opens : Bool) (a b : α) : Prop :=
  a ≤ b ∧ (opens = false → a = b)

lemma Rises.rfl {α : Type} [Preorder α] {opens : Bool} {a : α} : Rises opens a a :=
  ⟨le_refl a, fun _ => Eq.refl a⟩

lemma Rises.isDeepMember {opens : Bool} {e e' : Node}
    (h : Rises opens e.memberDepth e'.memberDepth) :
    Rises opens e.isDeepMember e'.isDeepMember := by
  refine ⟨fun hdeep => ?_, fun hopens => by rw [Node.isDeepMember, h.2 hopens, Node.isDeepMember]⟩
  have hlt : 1 < e.memberDepth := by simpa [Node.isDeepMember] using hdeep
  have hle := h.1
  simp only [Node.isDeepMember, decide_eq_true_eq]
  omega

namespace Sheds
variable {opens : Bool}

/-- An optional chain loses the wrapper that it holds, or it holds the same kind of node. -/
lemma content_cases {x x' : Node} (h : x.Sheds opens x')
    (closed : opens = false → Kind.chain = .chain → [x].map isWrapped = [x'].map isWrapped) :
    (x.isWrapped = true ∧ (opens = false → x'.isWrapped = true)) ∨ x'.kind = x.kind := by
  cases hwrapped : x.isWrapped with
  | false => exact Or.inr (h.kind_eq hwrapped)
  | true =>
    refine Or.inl ⟨Eq.refl true, fun hopens => ?_⟩
    simpa [hwrapped] using (closed hopens (Eq.refl _)).symm

lemma memberDepth_rises {e e' : Node} (h : e.Sheds opens e') :
    Rises opens e.memberDepth e'.memberDepth := by
  refine transfer (fun e e' => Rises opens e.memberDepth e'.memberDepth)
    (fun e e' => by rw [memberDepth_peel, memberDepth_peel])
    (fun {k s s' _ _} hbare closed ih => ?_) h
  cases k <;> try exact Rises.rfl
  case wrapper | typeAssertion =>
    rcases ih with _ | ⟨-, _ | -⟩ <;> first | exact Rises.rfl | cases hbare
  case member =>
    cases ih with
    | nil => exact Rises.rfl
    | cons first _ => simpa [memberDepth, Rises] using first.2
  case chain =>
    rcases ih with _ | ⟨⟨hx, first⟩, _ | -⟩
    · exact Rises.rfl
    · rcases hx.content_cases closed with ⟨hwrapped, hstays⟩ | hkind
      · rw [memberDepth_chain_of_isWrapped s hwrapped]
        refine ⟨Nat.zero_le _, fun hopens => ?_⟩
        rw [memberDepth_chain_of_isWrapped s' (hstays hopens)]
      · rw [memberDepth_chain, memberDepth_chain, isMember, isMember, hkind]
        split
        · exact first
        · exact Rises.rfl
    · simp [memberDepth, Rises]

lemma isEmpty_arguments_eq (s s' : Span) (callee callee' : Node) {rest rest' : List Node}
    (h : List.Forall₂ (Sheds opens) rest rest') :
    (mk .call s (callee :: rest)).arguments.isEmpty =
      (mk .call s' (callee' :: rest')).arguments.isEmpty := by
  simp only [arguments]
  induction h with
  | nil => rfl
  | cons first _ ih =>
    rw [List.filter_cons, List.filter_cons, first.isTypeArguments_eq]
    split
    · rfl
    · exact ih

lemma isComplexOperand_rises {e e' : Node} (h : e.Sheds opens e') :
    Rises opens e.isComplexOperand e'.isComplexOperand := by
  refine transfer (fun e e' => Rises opens e.isComplexOperand e'.isComplexOperand)
    (fun e e' => by rw [isComplexOperand_peel, isComplexOperand_peel])
    (fun {k s s' parts parts'} hbare closed ih => ?_) h
  have each : List.Forall₂ (Sheds opens) parts parts' := ih.imp fun e e' h => h.1
  have hdeep : Rises opens (mk k s parts).isDeepMember (mk k s' parts').isDeepMember :=
    (Sheds.within each closed).memberDepth_rises.isDeepMember
  cases k <;> try exact hdeep
  case wrapper | typeAssertion =>
    rcases ih with _ | ⟨-, _ | -⟩ <;> first | exact Rises.rfl | cases hbare
  case unary =>
    cases ih with
    | nil => exact Rises.rfl
    | cons first _ => simpa [isComplexOperand] using first.2
  case binary | logical => exact Rises.rfl
  case call =>
    cases each with
    | nil => exact Rises.rfl
    | @cons callee callee' rest rest' _ hrest =>
      change Rises opens (!(mk .call s (callee :: rest)).arguments.isEmpty)
        (!(mk .call s' (callee' :: rest')).arguments.isEmpty)
      rw [isEmpty_arguments_eq s s' callee callee' hrest]
      exact Rises.rfl
  case chain =>
    rcases ih with _ | ⟨⟨hx, first⟩, _ | -⟩
    · exact Rises.rfl
    · rcases hx.content_cases closed with ⟨hwrapped, hstays⟩ | hkind
      · rw [isComplexOperand_chain_of_isWrapped s hwrapped]
        refine ⟨Bool.false_le _, fun hopens => ?_⟩
        rw [isComplexOperand_chain_of_isWrapped s' (hstays hopens)]
      · rw [isComplexOperand_chain, isComplexOperand_chain, isCall, isCall, hkind]
        split
        · exact first
        · exact hdeep
    · simpa [isComplexOperand] using hdeep

/-- The operands of a chain stay, each without some of its wrappers. -/
lemma chainOperands_sheds (op : LogicalOp) {e e' : Node} (h : e.Sheds opens e') :
    ∀ whole whole' : Node, whole.Sheds opens whole' →
      List.Forall₂ (Sheds opens) (chainOperands op whole e) (chainOperands op whole' e') := by
  refine transfer (fun e e' => ∀ whole whole' : Node, whole.Sheds opens whole' →
      List.Forall₂ (Sheds opens) (chainOperands op whole e) (chainOperands op whole' e'))
    (fun e e' => by simp only [chainOperands_peel])
    (fun {k _ _ _ _} hbare _ ih whole whole' hwhole => ?_) h
  have hself : List.Forall₂ (Sheds opens) [whole] [whole'] := .cons hwhole .nil
  cases k <;> try exact hself
  case wrapper | typeAssertion =>
    rcases ih with _ | ⟨-, _ | -⟩ <;> first | exact hself | cases hbare
  case logical inner =>
    rcases ih with _ | ⟨⟨hl, hleft⟩, _ | ⟨⟨hr, hright⟩, _ | -⟩⟩ <;> try exact hself
    simp only [chainOperands]
    split
    · exact List.rel_append (hleft _ _ hl) (hright _ _ hr)
    · exact hself

lemma logicalOperands_sheds {e e' : Node} (h : e.Sheds opens e') :
    List.Forall₂ (Sheds opens) e.logicalOperands e'.logicalOperands := by
  refine transfer (fun e e' => List.Forall₂ (Sheds opens) e.logicalOperands e'.logicalOperands)
    (fun e e' => by rw [logicalOperands_peel, logicalOperands_peel])
    (fun {k _ _ _ _} hbare _ ih => ?_) h
  cases k <;> try exact .nil
  case wrapper | typeAssertion =>
    rcases ih with _ | ⟨-, _ | -⟩ <;> first | exact .nil | cases hbare
  case logical op =>
    rcases ih with _ | ⟨⟨hl, -⟩, _ | ⟨⟨hr, -⟩, _ | -⟩⟩ <;> try exact .nil
    exact List.rel_append (hl.chainOperands_sheds _ _ _ hl) (hr.chainOperands_sheds _ _ _ hr)

lemma ternaryTest?_count_eq {e e' : Node} (h : e.Sheds opens e') :
    e.ternaryTest?.map logicalOperatorCount = e'.ternaryTest?.map logicalOperatorCount := by
  refine transfer
    (fun e e' => e.ternaryTest?.map logicalOperatorCount = e'.ternaryTest?.map logicalOperatorCount)
    (fun e e' => by rw [ternaryTest?_peel, ternaryTest?_peel])
    (fun {k _ _ _ _} hbare _ ih => ?_) h
  cases k <;> try rfl
  case wrapper | typeAssertion => rcases ih with _ | ⟨-, _ | -⟩ <;> first | rfl | cases hbare
  case conditional =>
    rcases ih with _ | ⟨⟨htest, -⟩, -⟩
    · rfl
    · exact congrArg some htest.logicalOperatorCount_eq

lemma any_isComplexOperand_rises {es es' : List Node} (h : List.Forall₂ (Sheds opens) es es') :
    Rises opens (es.any isComplexOperand) (es'.any isComplexOperand) := by
  induction h with
  | nil => exact Rises.rfl
  | cons first _ ih =>
    have hfirst := first.isComplexOperand_rises
    rw [List.any_cons, List.any_cons]
    refine ⟨?_, fun hopens => by rw [hfirst.2 hopens, ih.2 hopens]⟩
    rw [Bool.le_iff_imp, Bool.or_eq_true, Bool.or_eq_true]
    exact Or.imp (Bool.le_iff_imp.mp hfirst.1) (Bool.le_iff_imp.mp ih.1)

/-- The verdict on a condition stays, unless an opened chain turns out to be a complex operand. -/
lemma violation?_cases {e e' : Node} (h : e.Sheds opens e') :
    e.violation? = e'.violation? ∨
      opens = true ∧ e'.violation? = some .complexOperands ∧
        (e.violation? = none ∨ e.violation? = some .templateLiteral) := by
  have htest : (e.ternaryTest?.any fun test => decide (0 < test.logicalOperatorCount)) =
      e'.ternaryTest?.any fun test => decide (0 < test.logicalOperatorCount) := by
    have hcounts := congrArg (Option.any fun n => decide (0 < n)) h.ternaryTest?_count_eq
    simpa [Option.any_map, Function.comp_def] using hcounts
  have hcomplex := any_isComplexOperand_rises h.logicalOperands_sheds
  simp only [violation?, h.logicalOperatorCount_eq, h.hasTemplate_eq, h.hasLogicalAssignment_eq,
    htest]
  by_cases hsame : e.logicalOperands.any isComplexOperand = e'.logicalOperands.any isComplexOperand
  · exact Or.inl (by rw [hsame])
  · have hopens : opens = true := by
      cases opens with
      | true => rfl
      | false => exact absurd (hcomplex.2 rfl) hsame
    obtain ⟨hbefore, hafter⟩ := Bool.lt_iff.mp (lt_of_le_of_ne hcomplex.1 hsame)
    rw [hbefore, hafter]
    simp only [Bool.and_false, Bool.and_true, Bool.false_eq_true, if_false, hopens]
    split_ifs <;> simp

end Sheds

/-- Without some of its wrappers an expression keeps its measures if no optional chain is opened.
Opening one can only raise them: a chain that holds a wrapper counts as simple. -/
theorem operand_measures_of_sheds {opens : Bool} {e e' : Node} (h : e.Sheds opens e') :
    (opens = false → e.memberDepth = e'.memberDepth ∧
      e.isComplexOperand = e'.isComplexOperand ∧ e.violation? = e'.violation?) ∧
    (e.memberDepth ≤ e'.memberDepth ∧ (e.isComplexOperand = true → e'.isComplexOperand = true) ∧
      (e.violation? = e'.violation? ∨ e'.violation? = some .complexOperands ∧
        (e.violation? = none ∨ e.violation? = some .templateLiteral))) ∧
    ∀ s w, e = mk .chain s [w] → w.isWrapped = true →
      e.memberDepth = 0 ∧ e.isComplexOperand = false := by
  have hdepth := h.memberDepth_rises
  have hcomplex := h.isComplexOperand_rises
  refine ⟨fun hopens => ⟨hdepth.2 hopens, hcomplex.2 hopens, ?_⟩,
    ⟨hdepth.1, Bool.le_iff_imp.mp hcomplex.1, h.violation?_cases.imp_right And.right⟩, ?_⟩
  · rcases h.violation?_cases with hsame | ⟨htrue, -⟩
    · exact hsame
    · exact absurd (htrue.symm.trans hopens) Bool.noConfusion
  · rintro s w rfl hwrapped
    exact ⟨memberDepth_chain_of_isWrapped s hwrapped,
      isComplexOperand_chain_of_isWrapped s hwrapped⟩

/-- From `a?.b.c! && d && e` to `a?.b.c && d && e`, which opens a chain, and from `(a.b)!.c` to
`a.b.c`, which does not. -/
theorem operand_measures_of_sheds_nonNull :
    let name := fun text => mk (.identifier text) ⟨0, 0⟩ []
    let member := fun object text => mk (.member .named) ⟨0, 0⟩ [object, mk (.word text) ⟨0, 0⟩ []]
    let both := fun left right => mk (.logical .and) ⟨0, 0⟩ [left, right]
    let nonNull := fun e => mk (.wrapper .nonNull) ⟨0, 0⟩ [e]
    let condition := fun content => both (both (mk .chain ⟨0, 0⟩ [content]) (name "d")) (name "e")
    let depth := member (member (name "a") "b") "c"
    let parenthesized := mk (.wrapper .parentheses) ⟨0, 0⟩ [member (name "a") "b"]
    (condition (nonNull depth)).Sheds true (condition depth) ∧
      (condition (nonNull depth)).violation? = none ∧
      (condition depth).violation? = some .complexOperands ∧
      (condition (nonNull depth)).memberDepth ≤ (condition depth).memberDepth ∧
      (member (nonNull parenthesized) "c").Sheds false depth ∧
      (member (nonNull parenthesized) "c").isComplexOperand = true := by
  intro name member both nonNull condition depth parenthesized
  have hopened : (mk .chain ⟨0, 0⟩ [nonNull depth]).Sheds true (mk .chain ⟨0, 0⟩ [depth]) :=
    .within (.cons (.off (.wrapper _ _ _) rfl (.refl depth)) .nil) nofun
  have hcondition : (condition (nonNull depth)).Sheds true (condition depth) :=
    .within (.cons (.within (.cons hopened (.cons (.refl _) .nil)) nofun) (.cons (.refl _) .nil))
      nofun
  have hinner : (nonNull parenthesized).Sheds false (member (name "a") "b") :=
    .off (.wrapper _ _ _) rfl (.off (.wrapper _ _ _) rfl (.refl _))
  have hdepth : (member (nonNull parenthesized) "c").Sheds false depth :=
    .within (.cons hinner (.cons (.refl _) .nil)) nofun
  have hraised := (operand_measures_of_sheds hcondition).2.1.1
  refine ⟨hcondition, by decide, by decide, hraised, hdepth, ?_⟩
  rw [((operand_measures_of_sheds hdepth).1 rfl).2.1]
  decide

end JsxLint.Node
