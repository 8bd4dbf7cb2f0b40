import JsxLint.Proofs.EnclosingFunctions

/-! The search for the function behind an expression. It works off a list of pending expressions
from the front, with the arguments of a call put before everything that was pending already. The
search comes to an end within as many rounds as the expression has nodes, and it finds what a
recursive search does that goes through the arguments of a call from left to right. Neither of them
looks into what is called or into a spread argument. -/
namespace JsxLint

lemma sizeAll_filter_le (p : Node → Bool) (ns : List Node) :
    sizeAll (ns.filter p) ≤ sizeAll ns := by
  induction ns with
  | nil => exact Nat.le_refl _
  | cons n ns ih =>
    rw [List.filter_cons]
    split
    · rw [sizeAll_cons, sizeAll_cons]
      omega
    · rw [sizeAll_cons]
      omega

namespace Node

lemma size_le_sizeAll {n : Node} {ns : List Node} (h : n ∈ ns) : n.size ≤ sizeAll ns := by
  obtain ⟨before, after, rfl⟩ := List.append_of_mem h
  rw [sizeAll_append, sizeAll_cons]
  omega

lemma size_peel_le (e : Node) : e.peel.size ≤ e.size := by
  fun_induction peel e with
  | case1 form s e types ih =>
    rw [size_mk, sizeAll_cons]
    omega
  | case2 s type e rest ih =>
    rw [size_mk, sizeAll_cons, sizeAll_cons]
    omega
  | case3 e => exact Nat.le_refl _

/-- The arguments of a call that are expressions of their own; a spread argument is none. -/
def plainArguments (e : Node) : List Node :=
  e.arguments.filter (·.kind ≠ .spread)

/-- The arguments of a call are smaller than the call, all of them together. -/
lemma sizeAll_plainArguments_lt (e : Node) : sizeAll e.plainArguments < e.size := by
  have hplain := sizeAll_filter_le (·.kind ≠ .spread) e.arguments
  have harguments : sizeAll e.arguments < e.size := by
    unfold arguments
    split
    · rename_i s callee rest
      have hrest := sizeAll_filter_le (!·.isTypeArguments) rest
      rw [size_mk, sizeAll_cons]
      omega
    · exact e.size_pos
  exact Nat.lt_of_le_of_lt hplain harguments

lemma size_lt_of_mem_plainArguments {e argument : Node} (h : argument ∈ e.peel.plainArguments) :
    argument.size < e.size := by
  have hsmaller := e.peel.sizeAll_plainArguments_lt
  have hargument := size_le_sizeAll h
  have hpeel := e.size_peel_le
  omega

/-- The recursive search: a function is found at once, and behind a call the first one that is
found in an argument, the arguments being taken from left to right. -/
def leftmostFunction? (e : Node) : Option Node :=
  if e.peel.isFunction then some e.peel
  else if e.peel.isCall then
    e.peel.plainArguments.attach.findSome? fun argument => argument.val.leftmostFunction?
  else none
termination_by e.size
decreasing_by exact size_lt_of_mem_plainArguments argument.property

lemma findSome?_attach {β : Type} (f : Node → Option β) (es : List Node) :
    (es.attach.findSome? fun e => f e.val) = es.findSome? f := by
  conv_rhs => rw [← List.attach_map_subtype_val es, List.findSome?_map]
  rfl

lemma functionIn?_of_isFunction {e : Node} (h : e.isFunction = true) :
    e.functionIn? = some e := by
  obtain ⟨k, s, parts⟩ := e
  cases k
  case arrow | function => rw [functionIn?, firstFunction?]
  all_goals cases h

/-- Only functions and calls have a function behind them. -/
lemma functionIn?_eq_none {e : Node} (hfunction : e.peel.isFunction = false)
    (hcall : e.peel.isCall = false) : e.functionIn? = none := by
  fun_induction peel e with
  | case1 form s e types ih =>
    rw [functionIn?_wrapper]
    exact ih hfunction hcall
  | case2 s type e rest ih =>
    rw [functionIn?_typeAssertion]
    exact ih hfunction hcall
  | case3 e hwrapper hassertion =>
    rw [functionIn?, firstFunction?.eq_7 e [] hwrapper hassertion, firstFunction?]
    · rintro s parts rfl
      cases hfunction
    · rintro form s parts rfl
      cases hfunction
    · rintro s callee rest rfl
      cases hcall

lemma functionIn?_of_isSpread {e : Node} (h : e.kind = .spread) : e.functionIn? = none := by
  obtain ⟨k, s, parts⟩ := e
  obtain rfl : k = .spread := h
  exact functionIn?_eq_none rfl rfl

/-- The arguments of a call are searched one after the other, spread ones without success. -/
lemma functionIn?_of_isCall {e : Node} (h : e.isCall = true) :
    e.functionIn? = e.plainArguments.findSome? functionIn? := by
  obtain ⟨k, s, parts⟩ := e
  obtain rfl : k = .call := by cases k <;> first | rfl | cases h
  have hspread (e : Node) (he : decide (e.kind ≠ .spread) = false) : e.functionIn? = none :=
    functionIn?_of_isSpread (by simpa using he)
  cases parts with
  | nil => simp [functionIn?, firstFunction?, plainArguments, arguments]
  | cons callee rest =>
    rw [functionIn?_call, plainArguments, findSome?_filter hspread,
      findSome?_arguments fun _ => functionIn?_of_isTypeArguments]

/-- Working off the pending expressions finds what the recursive search does. -/
theorem functionIn?_eq_leftmostFunction? (e : Node) : e.functionIn? = e.leftmostFunction? := by
  fun_induction leftmostFunction? e with
  | case1 e hfunction => rw [← functionIn?_peel, functionIn?_of_isFunction hfunction]
  | case2 e hfunction hcall ih =>
    rw [← functionIn?_peel, functionIn?_of_isCall hcall, ← findSome?_attach]
    congr 1
    funext argument
    exact ih argument
  | case3 e hfunction hcall =>
    exact functionIn?_eq_none (Bool.eq_false_iff.mpr hfunction) (Bool.eq_false_iff.mpr hcall)

lemma plainArguments_eq_nil {e : Node} (h : e.isCall = false) : e.plainArguments = [] := by
  unfold plainArguments arguments
  split
  · cases h
  · rfl

end Node

/-- The search is over after `rounds` rounds. Each takes the first pending expression: a function is
the outcome, the arguments of a call come before what is left, and nothing comes of the rest. -/
inductive WorksOff : (rounds : Nat) → (pending : List Node) → (outcome : Option Node) → Prop
  | nothing : WorksOff 0 [] none
  | found {e : Node} {pending : List Node} (h : e.peel.isFunction = true) :
      WorksOff 1 (e :: pending) (some e.peel)
  | round {rounds : Nat} {e : Node} {pending : List Node} {outcome : Option Node}
      (h : e.peel.isFunction = false)
      (rest : WorksOff rounds (e.peel.plainArguments ++ pending) outcome) :
      WorksOff (rounds + 1) (e :: pending) outcome

section Rounds
variable {e : Node} {pending : List Node}

lemma firstFunction?_found (h : e.peel.isFunction = true) (pending : List Node) :
    firstFunction? (e :: pending) = some e.peel := by
  rw [firstFunction?_eq_findSome?, List.findSome?_cons, ← Node.functionIn?_peel,
    Node.functionIn?_of_isFunction h]

lemma firstFunction?_round (h : e.peel.isFunction = false) (pending : List Node) :
    firstFunction? (e :: pending) = firstFunction? (e.peel.plainArguments ++ pending) := by
  have hone : firstFunction? [e] = firstFunction? e.peel.plainArguments := by
    rw [firstFunction?_eq_findSome? e.peel.plainArguments]
    cases hcall : e.peel.isCall with
    | true => rw [← Node.functionIn?_of_isCall hcall, Node.functionIn?_peel, Node.functionIn?]
    | false =>
      rw [Node.plainArguments_eq_nil hcall, List.findSome?_nil]
      exact Node.functionIn?_eq_none h hcall
  rw [← List.singleton_append, firstFunction?_append, hone, ← firstFunction?_append]

/-- Every round takes a node off what is pending. -/
lemma sizeAll_round_lt (e : Node) (pending : List Node) :
    sizeAll (e.peel.plainArguments ++ pending) < sizeAll (e :: pending) := by
  have harguments := e.peel.sizeAll_plainArguments_lt
  have hpeel := e.size_peel_le
  rw [sizeAll_append, sizeAll_cons]
  omega

/-- The search ends, within as many rounds as there are nodes pending. -/
theorem exists_worksOff (pending : List Node) :
    ∃ rounds ≤ sizeAll pending, WorksOff rounds pending (firstFunction? pending) := by
  induction hsize : sizeAll pending using Nat.strongRecOn generalizing pending with
  | ind size ih =>
    cases pending with
    | nil => exact ⟨0, Nat.zero_le _, by rw [firstFunction?]; exact .nothing⟩
    | cons e pending =>
      have hless := sizeAll_round_lt e pending
      cases hfunction : e.peel.isFunction with
      | true =>
        rw [firstFunction?_found hfunction]
        exact ⟨1, by omega, .found hfunction⟩
      | false =>
        rw [firstFunction?_round hfunction]
        obtain ⟨rounds, hrounds, hrest⟩ := ih _ (hsize ▸ hless) _ rfl
        exact ⟨rounds + 1, by omega, .round hfunction hrest⟩

/-- The search has one outcome only. -/
theorem WorksOff.outcome_eq {rounds : Nat} {outcome : Option Node}
    (h : WorksOff rounds pending outcome) : outcome = firstFunction? pending := by
  induction h with
  | nothing => rw [firstFunction?]
  | found hfunction => rw [firstFunction?_found hfunction]
  | round hfunction _ ih => rw [ih, firstFunction?_round hfunction]

end Rounds

/-- The search for the function behind an expression is depth first from left to right, and it ends
in at most as many rounds as the expression has nodes. -/
theorem Node.functionIn?_depth_first (e : Node) :
    e.functionIn? = e.leftmostFunction? ∧
    (∃ rounds ≤ e.size, WorksOff rounds [e] e.leftmostFunction?) ∧
    ∀ rounds outcome, WorksOff rounds [e] outcome → outcome = e.leftmostFunction? := by
  have hsame := e.functionIn?_eq_leftmostFunction?
  rw [← hsame]
  refine ⟨rfl, ?_, fun rounds outcome h => h.outcome_eq⟩
  have hends := exists_worksOff [e]
  rwa [sizeAll_cons, sizeAll, Nat.add_zero] at hends

end JsxLint
