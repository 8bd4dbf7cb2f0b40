import JsxLint.Proofs.Rewrapping
import Mathlib.Algebra.GroupWithZero.Nat

/-! What optional chains hide from the measures of a condition. An optional chain such as
`items?.[a || b]` is one term of a condition, and its parts are not looked at. `unchained` is the
tree with every optional chain replaced by what it holds; the measures of the two trees differ
exactly by what is found in the chains that the terms of the condition reach. -/
namespace JsxLint

mutual

/-- The tree with every optional chain in it replaced by what it holds. -/
def Node.unchained : Node → Node
  | .mk .chain _ [e] => e.unchained
  | .mk k s parts => .mk k s (unchainedAll parts)

def unchainedAll : List Node → List Node
  | [] => []
  | e :: es => e.unchained :: unchainedAll es

end

@[simp] lemma unchainedAll_eq_map (es : List Node) : unchainedAll es = es.map Node.unchained := by
  induction es with
  | nil => rw [unchainedAll, List.map_nil]
  | cons e es ih => rw [unchainedAll, ih, List.map_cons]

namespace Node

def chainContent? : Node → Option Node
  | mk .chain _ [e] => some e
  | _ => none

def chainContents (e : Node) : List Node :=
  e.terms.filterMap chainContent?

lemma chainContent?_eq_some_iff {e x : Node} :
    e.chainContent? = some x ↔ ∃ s, e = mk .chain s [x] := by
  constructor
  · intro h
    unfold chainContent? at h
    split at h
    · rename_i s content
      cases h
      exact ⟨s, rfl⟩
    · cases h
  · rintro ⟨s, rfl⟩
    rfl

@[simp] lemma unchained_chain (s : Span) (x : Node) :
    (mk .chain s [x]).unchained = x.unchained := by
  rw [unchained]

lemma unchained_mk {k : Kind} {s : Span} {parts : List Node}
    (h : (mk k s parts).chainContent? = none) :
    (mk k s parts).unchained = mk k s (parts.map unchained) := by
  rw [unchained.eq_2, unchainedAll_eq_map]
  rintro x rfl rfl
  cases h

/-- What a term of a condition becomes when the chains are gone: the terms of its content if it is a
chain, one term otherwise. -/
def unchainedTerms (t : Node) : List Node :=
  match t.chainContent? with
  | some x => x.unchained.terms
  | none => [t.unchained]

lemma unchainedTerms_of_none {t : Node} (h : t.chainContent? = none) :
    t.unchainedTerms = [t.unchained] := by
  rw [unchainedTerms, h]

lemma termsAll_map_unchained {es : List Node}
    (h : ∀ e ∈ es, e.unchained.terms = e.terms.flatMap unchainedTerms) :
    termsAll (es.map unchained) = (termsAll es).flatMap unchainedTerms := by
  induction es with
  | nil => simp [termsAll]
  | cons e es ih =>
    have hrest := ih fun e' he' => h e' (List.mem_cons_of_mem e he')
    simp [termsAll, h e List.mem_cons_self, hrest]

theorem terms_unchained (e : Node) : e.unchained.terms = e.terms.flatMap unchainedTerms := by
  induction e using induction with
  | node k s parts ih =>
    cases hcontent : (mk k s parts).chainContent? with
    | some x =>
      obtain ⟨s, ⟨⟩⟩ := chainContent?_eq_some_iff.mp hcontent
      simp [terms, unchainedTerms, chainContent?]
    | none =>
      have hself := unchainedTerms_of_none hcontent
      rw [unchained_mk hcontent] at hself ⊢
      cases k
      case wrapper =>
        rcases parts with _ | ⟨e, rest⟩
        · simpa [terms] using hself.symm
        · simpa [terms] using ih e (by simp)
      case typeAssertion =>
        rcases parts with _ | ⟨type, _ | ⟨e, rest⟩⟩
        · simpa [terms] using hself.symm
        · simpa [terms] using hself.symm
        · simpa [terms] using ih e (by simp)
      case unary | binary | logical | conditional | member =>
        simp [terms, hself, termsAll_map_unchained ih]
      case assignment | call =>
        rcases parts with _ | ⟨first, rest⟩
        · simpa [terms] using hself.symm
        · have hrest := termsAll_map_unchained fun e he => ih e (List.mem_cons_of_mem first he)
          simp only [List.map_cons] at hself
          simp [terms, hself, hrest]
      all_goals simpa [terms] using hself.symm

section Measures
variable {p : Node → Bool} (hkind : ∀ {e e' : Node}, e.kind = e'.kind → p e = p e')
  (hchain : ∀ s parts, p (mk .chain s parts) = false)
include hkind hchain

lemma unchainedTerms_cases (t : Node) :
    (∃ x, t.chainContent? = some x ∧ t.unchainedTerms = x.unchained.terms ∧ p t = false) ∨
    ∃ t', t.chainContent? = none ∧ t.unchainedTerms = [t'] ∧ p t' = p t := by
  cases hcontent : t.chainContent? with
  | some x =>
    obtain ⟨s, rfl⟩ := chainContent?_eq_some_iff.mp hcontent
    exact Or.inl ⟨x, rfl, rfl, hchain s [x]⟩
  | none =>
    obtain ⟨k, s, parts⟩ := t
    refine Or.inr ⟨_, rfl, unchainedTerms_of_none hcontent, ?_⟩
    exact hkind (by rw [unchained_mk hcontent, kind_mk, kind_mk])

/-- Taking the chains away adds the terms with `p` in what they hold. -/
lemma countP_unchained (e : Node) :
    e.unchained.terms.countP p =
      e.terms.countP p + (e.chainContents.map fun x => x.unchained.terms.countP p).sum := by
  rw [terms_unchained, chainContents]
  induction e.terms with
  | nil => rfl
  | cons t ts ih =>
    rw [List.flatMap_cons, List.countP_append, ih, List.countP_cons, List.filterMap_cons]
    rcases unchainedTerms_cases hkind hchain t with
      ⟨x, hcontent, hterms, hp⟩ | ⟨t', hcontent, hterms, hp⟩
    · simp only [hcontent, hterms, hp, List.map_cons, List.sum_cons, Bool.false_eq_true, if_false]
      omega
    · simp only [hcontent, hterms, List.countP_singleton, hp]
      omega

lemma any_unchained (e : Node) :
    e.unchained.terms.any p =
      (e.terms.any p || e.chainContents.any fun x => x.unchained.terms.any p) := by
  rw [terms_unchained, chainContents]
  induction e.terms with
  | nil => rfl
  | cons t ts ih =>
    rw [List.flatMap_cons, List.any_append, ih, List.any_cons, List.filterMap_cons]
    rcases unchainedTerms_cases hkind hchain t with
      ⟨x, hcontent, hterms, hp⟩ | ⟨t', hcontent, hterms, hp⟩
    · simp only [hcontent, hterms, hp, List.any_cons, Bool.false_or]
      exact Bool.or_left_comm _ _ _
    · simp only [hcontent, hterms, List.any_cons, List.any_nil, Bool.or_false, hp, Bool.or_assoc]

end Measures

lemma logicalOperatorCount_unchained (e : Node) :
    e.unchained.logicalOperatorCount = e.logicalOperatorCount +
      (e.chainContents.map fun x => x.unchained.logicalOperatorCount).sum :=
  countP_unchained isLogicalOperator_congr (fun _ _ => rfl) e

lemma hasTemplate_unchained (e : Node) :
    e.unchained.hasTemplate =
      (e.hasTemplate || e.chainContents.any fun x => x.unchained.hasTemplate) :=
  any_unchained isTemplate_congr (fun _ _ => rfl) e

lemma hasLogicalAssignment_unchained (e : Node) :
    e.unchained.hasLogicalAssignment =
      (e.hasLogicalAssignment || e.chainContents.any fun x => x.unchained.hasLogicalAssignment) :=
  any_unchained isLogicalAssignment_congr (fun _ _ => rfl) e

/-- An assignment with a logical operator is counted as a logical operator. -/
lemma logicalOperatorCount_pos {e : Node} (h : e.hasLogicalAssignment = true) :
    0 < e.logicalOperatorCount := by
  obtain ⟨t, ht, hassigns⟩ := List.any_eq_true.mp h
  refine List.countP_pos_iff.mpr ⟨t, ht, ?_⟩
  unfold isLogicalAssignment at hassigns
  split at hassigns
  · rfl
  · cases hassigns

/-- Optional chains hide their contents from the measures of a condition, and nothing else is lost.
-/
theorem measures_unchained (e : Node) :
    (e.unchained.logicalOperatorCount = e.logicalOperatorCount +
      (e.chainContents.map fun x => x.unchained.logicalOperatorCount).sum ∧
    e.unchained.hasTemplate =
      (e.hasTemplate || e.chainContents.any fun x => x.unchained.hasTemplate) ∧
    e.unchained.hasLogicalAssignment =
      (e.hasLogicalAssignment || e.chainContents.any fun x => x.unchained.hasLogicalAssignment)) ∧
    (e.unchained.logicalOperatorCount = e.logicalOperatorCount ∧
        e.unchained.hasTemplate = e.hasTemplate ∧
        e.unchained.hasLogicalAssignment = e.hasLogicalAssignment ↔
      ∀ x ∈ e.chainContents, x.unchained.logicalOperatorCount = 0 ∧
        (x.unchained.hasTemplate = true → e.hasTemplate = true)) := by
  refine ⟨⟨e.logicalOperatorCount_unchained, e.hasTemplate_unchained,
    e.hasLogicalAssignment_unchained⟩, ?_⟩
  rw [logicalOperatorCount_unchained, hasTemplate_unchained, hasLogicalAssignment_unchained]
  constructor
  · rintro ⟨hcount, htemplate, -⟩ x hx
    have hsum : (e.chainContents.map fun x => x.unchained.logicalOperatorCount).sum = 0 := by omega
    refine ⟨List.sum_eq_zero_iff_forall_eq_nat.mp hsum _ (List.mem_map_of_mem hx), fun hx' => ?_⟩
    rw [← htemplate, Bool.or_eq_true]
    exact Or.inr (List.any_eq_true.mpr ⟨x, hx, hx'⟩)
  · intro h
    have hsum : (e.chainContents.map fun x => x.unchained.logicalOperatorCount).sum = 0 := by
      simpa [List.sum_eq_zero_iff_forall_eq_nat] using fun x hx => (h x hx).1
    have hnone : (e.chainContents.any fun x => x.unchained.hasLogicalAssignment) = false := by
      rw [List.any_eq_false]
      intro x hx hassigns
      have := logicalOperatorCount_pos hassigns
      have := (h x hx).1
      omega
    refine ⟨by omega, ?_, by rw [hnone, Bool.or_false]⟩
    cases htemplate : e.hasTemplate with
    | true => rfl
    | false =>
      rw [Bool.false_or, List.any_eq_false]
      intro x hx hx'
      exact Bool.false_ne_true (htemplate.symm.trans ((h x hx).2 hx'))

/-- In `items?.[a || b]` no operator is counted, in `items[a || b]` one is. -/
theorem measures_unchained_optionalIndex :
    let name := fun text => mk (.identifier text) ⟨0, 0⟩ []
    let chain := mk .chain ⟨0, 15⟩ [mk (.member .computed) ⟨0, 15⟩ [name "items",
      mk (.logical .or) ⟨8, 14⟩ [name "a", name "b"]]]
    chain.logicalOperatorCount = 0 ∧ chain.unchained.logicalOperatorCount = 1 := by
  intro name chain
  have hcount : chain.logicalOperatorCount = 0 := by decide
  have hhidden : (chain.chainContents.map fun x => x.unchained.logicalOperatorCount).sum = 1 := by
    decide
  refine ⟨hcount, ?_⟩
  rw [(measures_unchained chain).1.1, hcount, hhidden]

end Node

end JsxLint
