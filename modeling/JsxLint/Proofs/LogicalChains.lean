import JsxLint.Proofs.OperandWrappers
import Mathlib.Algebra.GroupWithZero.Nat

/-! Chains of one logical operator. A chain is flattened into its operands by following the operator
alone, while the measures of a condition walk through every term of it. The two agree: the operators
of a chain are the ones between its operands and the ones in them. So the verdict on a chain is
settled by the list of its operands, and how they are grouped does not matter. Nothing is said of
grouping under different operators. -/
namespace JsxLint.Node
variable {op : LogicalOp} {e left right : Node}

/-- Under its wrappers, the expression joins two operands with the operator. -/
def Joins (op : LogicalOp) (e left right : Node) : Prop :=
  ∃ s, e.peel = mk (.logical op) s [left, right]

def IsJoined (op : LogicalOp) (e : Node) : Prop :=
  ∃ left right, e.Joins op left right

lemma peel_of_not_isWrapped (h : e.isWrapped = false) : e.peel = e := by
  obtain ⟨k, s, parts⟩ := e
  cases k <;> try rfl
  case wrapper => cases parts <;> first | rfl | cases h
  case typeAssertion => rcases parts with _ | ⟨_, _ | _⟩ <;> first | rfl | cases h

/-- What holds of every expression that is no operation with the operator, and of an operation if it
holds of both its operands, holds of every expression. -/
theorem chain_induction (op : LogicalOp) {motive : Node → Prop}
    (operand : ∀ e, ¬ e.IsJoined op → motive e)
    (join : ∀ e left right, e.Joins op left right → motive left → motive right → motive e)
    (e : Node) : motive e := by
  suffices h : ∀ whole : Node, whole.peel = e.peel → motive whole from h e rfl
  induction e using Node.induction with
  | node k s parts ih =>
    intro whole hwhole
    by_cases hjoined : whole.IsJoined op
    · obtain ⟨left, right, s', hpeel⟩ := hjoined
      cases hwrapped : (mk k s parts).isWrapped with
      | true =>
        obtain ⟨inner, hmem, hinner⟩ := exists_part_of_isWrapped hwrapped
        exact ih inner hmem whole (hwhole.trans hinner)
      | false =>
        rw [hwhole, peel_of_not_isWrapped hwrapped] at hpeel
        obtain ⟨rfl, rfl, rfl⟩ := Node.mk.inj hpeel
        have hjoins : whole.Joins op left right :=
          ⟨s, hwhole.trans (peel_of_not_isWrapped hwrapped)⟩
        exact join whole left right hjoins (ih left (by simp) left rfl)
          (ih right (by simp) right rfl)
    · exact operand whole hjoined

lemma chainOperands_of_joins (h : e.Joins op left right) (whole : Node) :
    chainOperands op whole e = chainOperands op left left ++ chainOperands op right right := by
  obtain ⟨s, hpeel⟩ := h
  rw [← chainOperands_peel, hpeel]
  simp [chainOperands]

lemma chainOperands_of_not_isJoined (h : ¬ e.IsJoined op) (whole : Node) :
    chainOperands op whole e = [whole] := by
  fun_induction chainOperands op whole e with
  | case1 whole form s e rest ih =>
    refine ih fun ⟨left, right, s', hpeel⟩ => h ⟨left, right, s', ?_⟩
    exact (peel_wrapper form s e rest).trans hpeel
  | case2 whole s type e rest ih =>
    refine ih fun ⟨left, right, s', hpeel⟩ => h ⟨left, right, s', ?_⟩
    exact (peel_typeAssertion s type e rest).trans hpeel
  | case3 whole s left right => exact absurd ⟨left, right, s, rfl⟩ h
  | case4 => rfl
  | case5 => rfl

lemma logicalOperands_of_joins (h : e.Joins op left right) :
    e.logicalOperands = chainOperands op left left ++ chainOperands op right right := by
  obtain ⟨s, hpeel⟩ := h
  rw [logicalOperands, hpeel]

/-- An operation with the operator is flattened the same way as a whole and inside a chain. -/
lemma logicalOperands_eq_chainOperands (h : e.IsJoined op) :
    e.logicalOperands = chainOperands op e e := by
  obtain ⟨left, right, hjoins⟩ := h
  rw [logicalOperands_of_joins hjoins, chainOperands_of_joins hjoins]

lemma terms_of_joins (h : e.Joins op left right) :
    ∃ s, e.terms = mk (.logical op) s [left, right] :: (left.terms ++ right.terms) := by
  obtain ⟨s, hpeel⟩ := h
  refine ⟨s, ?_⟩
  rw [← terms_peel, hpeel]
  simp [terms, termsAll]

lemma logicalOperatorCount_of_joins (h : e.Joins op left right) :
    e.logicalOperatorCount = left.logicalOperatorCount + right.logicalOperatorCount + 1 := by
  obtain ⟨s, hterms⟩ := terms_of_joins h
  rw [logicalOperatorCount, hterms, List.countP_cons_of_pos rfl, List.countP_append]
  rfl

lemma length_chainOperands_pos (op : LogicalOp) (e : Node) :
    0 < (chainOperands op e e).length := by
  induction e using chain_induction op with
  | operand e h => simp [chainOperands_of_not_isJoined h]
  | join e left right h ihleft ihright =>
    rw [chainOperands_of_joins h, List.length_append]
    omega

lemma not_isJoined_of_mem_chainOperands (op : LogicalOp) (e : Node) :
    ∀ o ∈ chainOperands op e e, ¬ o.IsJoined op := by
  induction e using chain_induction op with
  | operand e h => simpa [chainOperands_of_not_isJoined h] using h
  | join e left right h ihleft ihright =>
    rw [chainOperands_of_joins h]
    intro o ho
    rcases List.mem_append.mp ho with ho | ho
    · exact ihleft o ho
    · exact ihright o ho

/-- A chain has one operator fewer than operands, besides those in the operands. -/
lemma logicalOperatorCount_add_one (op : LogicalOp) (e : Node) :
    e.logicalOperatorCount + 1 = (chainOperands op e e).length +
      ((chainOperands op e e).map logicalOperatorCount).sum := by
  induction e using chain_induction op with
  | operand e h =>
    simp [chainOperands_of_not_isJoined h, Nat.add_comm]
  | join e left right h ihleft ihright =>
    rw [chainOperands_of_joins h, logicalOperatorCount_of_joins h, List.length_append,
      List.map_append, List.sum_append]
    omega

/-- A mark that logical operators do not bear is on a term of a chain exactly if it is on a term of
one of the operands. -/
lemma any_terms_chainOperands (op : LogicalOp) {p : Node → Bool}
    (hlogical : ∀ s parts, p (mk (.logical op) s parts) = false) (e : Node) :
    e.terms.any p = (chainOperands op e e).any fun o => o.terms.any p := by
  induction e using chain_induction op with
  | operand e h => simp [chainOperands_of_not_isJoined h]
  | join e left right h ihleft ihright =>
    obtain ⟨s, hterms⟩ := terms_of_joins h
    rw [chainOperands_of_joins h, List.any_append, ← ihleft, ← ihright, hterms, List.any_cons,
      hlogical, Bool.false_or, List.any_append]

lemma ternaryTest?_of_isJoined (h : e.IsJoined op) : e.ternaryTest? = none := by
  obtain ⟨left, right, s, hpeel⟩ := h
  rw [ternaryTest?, hpeel]

/-- The verdict on a chain is settled by its operands. -/
theorem violation?_eq_of_logicalOperands_eq {e e' : Node} (h : e.IsJoined op)
    (h' : e'.IsJoined op) (hoperands : e.logicalOperands = e'.logicalOperands) :
    e.violation? = e'.violation? := by
  have hchain : chainOperands op e e = chainOperands op e' e' := by
    rw [← logicalOperands_eq_chainOperands h, hoperands, logicalOperands_eq_chainOperands h']
  have hcount : e.logicalOperatorCount = e'.logicalOperatorCount := by
    have hleft := logicalOperatorCount_add_one op e
    have hright := logicalOperatorCount_add_one op e'
    rw [hchain] at hleft
    omega
  have htemplate : e.hasTemplate = e'.hasTemplate := by
    rw [hasTemplate, any_terms_chainOperands op (fun _ _ => rfl), hchain,
      ← any_terms_chainOperands op (fun _ _ => rfl), hasTemplate]
  have hassigns : e.hasLogicalAssignment = e'.hasLogicalAssignment := by
    rw [hasLogicalAssignment, any_terms_chainOperands op (fun _ _ => rfl), hchain,
      ← any_terms_chainOperands op (fun _ _ => rfl), hasLogicalAssignment]
  simp only [violation?, hcount, htemplate, hassigns, hoperands, ternaryTest?_of_isJoined h,
    ternaryTest?_of_isJoined h']

/-- The operators in a chain are those between its operands and those in them, and grouping from the
left or from the right gives the same operands and verdict. -/
theorem chain_counted_and_regrouped (op : LogicalOp) :
    (∀ e : Node, e.IsJoined op →
      2 ≤ e.logicalOperands.length ∧
      (∀ o ∈ e.logicalOperands, ¬ o.IsJoined op) ∧
      e.logicalOperatorCount = e.logicalOperands.length - 1 +
        (e.logicalOperands.map logicalOperatorCount).sum) ∧
    ∀ a b c fromLeft ab fromRight bc : Node,
      fromLeft.Joins op ab c → ab.Joins op a b →
      fromRight.Joins op a bc → bc.Joins op b c →
      fromLeft.logicalOperands = fromRight.logicalOperands ∧
        fromLeft.violation? = fromRight.violation? := by
  refine ⟨fun e h => ?_, fun a b c fromLeft ab fromRight bc hleft hab hright hbc => ?_⟩
  · have hcount := logicalOperatorCount_add_one op e
    have hnone := not_isJoined_of_mem_chainOperands op e
    rw [← logicalOperands_eq_chainOperands h] at hcount hnone
    have htwo : 2 ≤ e.logicalOperands.length := by
      obtain ⟨left, right, hjoins⟩ := h
      have hfirst := length_chainOperands_pos op left
      have hsecond := length_chainOperands_pos op right
      rw [logicalOperands_of_joins hjoins, List.length_append]
      omega
    exact ⟨htwo, hnone, by omega⟩
  · have hoperands : fromLeft.logicalOperands = fromRight.logicalOperands := by
      rw [logicalOperands_of_joins hleft, logicalOperands_of_joins hright,
        chainOperands_of_joins hab, chainOperands_of_joins hbc, List.append_assoc]
    exact ⟨hoperands, violation?_eq_of_logicalOperands_eq ⟨ab, c, hleft⟩ ⟨a, bc, hright⟩ hoperands⟩

/-- The operands of `(a && (b || c)) && d.e.f`, also when they are grouped as
`a && ((b || c) && d.e.f)!`. -/
theorem chain_counted_and_regrouped_mixedOperators :
    let name := fun text => mk (.identifier text) ⟨0, 0⟩ []
    let member := fun object text => mk (.member .named) ⟨0, 0⟩ [object, mk (.word text) ⟨0, 0⟩ []]
    let both := fun left right => mk (.logical .and) ⟨0, 0⟩ [left, right]
    let parenthesized := fun e => mk (.wrapper .parentheses) ⟨0, 0⟩ [e]
    let nonNull := fun e => mk (.wrapper .nonNull) ⟨0, 0⟩ [e]
    let either := parenthesized (mk (.logical .or) ⟨0, 0⟩ [name "b", name "c"])
    let deep := member (member (name "d") "e") "f"
    let fromLeft := both (parenthesized (both (name "a") either)) deep
    let fromRight := both (name "a") (nonNull (parenthesized (both either deep)))
    fromLeft.IsJoined .and ∧ fromLeft.logicalOperands = [name "a", either, deep] ∧
      fromLeft.logicalOperatorCount = 3 - 1 + (0 + (1 + (0 + 0))) ∧
      fromRight.logicalOperands = [name "a", either, deep] ∧
      fromRight.violation? = some .tooManyOperators := by
  intro name member both parenthesized nonNull either deep fromLeft fromRight
  have hjoined : fromLeft.IsJoined .and := ⟨_, _, _, rfl⟩
  have hoperands : fromLeft.logicalOperands = [name "a", either, deep] := rfl
  obtain ⟨hcounted, hregrouped⟩ := chain_counted_and_regrouped .and
  obtain ⟨hsame, hverdict⟩ := hregrouped (name "a") either deep fromLeft _ fromRight _
    ⟨_, rfl⟩ ⟨_, rfl⟩ ⟨_, rfl⟩ ⟨_, rfl⟩
  exact ⟨hjoined, hoperands, (hcounted fromLeft hjoined).2.2, hsame ▸ hoperands,
    hverdict.symm.trans (by decide)⟩

end JsxLint.Node
