import JsxLint.DerivedStore
import Mathlib.Data.List.Basic
import Mathlib.Tactic.Common

/-! What each operation leaves in the store of variables. Reading a name can do three things
only, and at most one entry changes; `pendings` counts what is still to be handed out. -/
namespace JsxLint.DerivedStore

def FirstWith (p : Span → Prop) (scopes : List Span) (scope : Span) : Prop :=
  ∃ inner outer, scopes = inner ++ scope :: outer ∧ (∀ s ∈ inner, ¬ p s) ∧ p scope

lemma firstWith_head {p : Span → Prop} {scope : Span} (outer : List Span) (h : p scope) :
    FirstWith p (scope :: outer) scope :=
  ⟨[], outer, rfl, by simp, h⟩

lemma firstWith_tail {p : Span → Prop} {s scope : Span} {outer : List Span} (hs : ¬ p s)
    (h : FirstWith p outer scope) : FirstWith p (s :: outer) scope := by
  obtain ⟨inner, rest, rfl, hinner, hp⟩ := h
  refine ⟨s :: inner, rest, rfl, ?_, hp⟩
  intro t ht
  rcases List.mem_cons.mp ht with rfl | ht
  · exact hs
  · exact hinner t ht

lemma FirstWith.mem {p : Span → Prop} {scopes : List Span} {scope : Span}
    (h : FirstWith p scopes scope) : scope ∈ scopes := by
  obtain ⟨inner, outer, rfl, -, -⟩ := h
  simp

lemma FirstWith.holds {p : Span → Prop} {scopes : List Span} {scope : Span}
    (h : FirstWith p scopes scope) : p scope := by
  obtain ⟨_, _, -, -, hp⟩ := h
  exact hp

lemma firstWith_cons {p : Span → Prop} {s scope : Span} {outer : List Span}
    (h : FirstWith p (s :: outer) scope) :
    scope = s ∧ p s ∨ ¬ p s ∧ FirstWith p outer scope := by
  obtain ⟨inner, rest, heq, hinner, hp⟩ := h
  cases inner with
  | nil =>
    obtain ⟨rfl, rfl⟩ := List.cons.inj heq
    exact Or.inl ⟨rfl, hp⟩
  | cons t inner =>
    obtain ⟨rfl, rfl⟩ := List.cons.inj heq
    exact Or.inr ⟨hinner s (by simp), inner, rest, rfl,
      fun t ht => hinner t (List.mem_cons_of_mem s ht), hp⟩

lemma FirstWith.unique {p : Span → Prop} {scopes : List Span} {s t : Span}
    (hs : FirstWith p scopes s) (ht : FirstWith p scopes t) : s = t := by
  induction scopes with
  | nil => simpa using hs.mem
  | cons u outer ih =>
    rcases firstWith_cons hs with ⟨rfl, hp⟩ | ⟨hn, hs⟩
    · rcases firstWith_cons ht with ⟨rfl, -⟩ | ⟨hn, -⟩
      · rfl
      · exact absurd hp hn
    · rcases firstWith_cons ht with ⟨rfl, hp⟩ | ⟨-, ht⟩
      · exact absurd hp hn
      · exact ih hs ht

def Knows (store : DerivedStore) (name : String) (scope : Span) : Prop :=
  store.find? name scope ≠ none

/-- The name stands in the scope for the derived condition at `span`, reported or not. -/
def HasCondition (store : DerivedStore) (name : String) (scope span : Span) : Prop :=
  ∃ status, status ≠ .plain ∧ store.find? name scope = some ⟨span, status⟩

/-- The nearest variable called `name` is the derived condition at `span`, reported or not. -/
def Finds (store : DerivedStore) (name : String) (scopes : List Span) (span : Span) : Prop :=
  ∃ scope, FirstWith (store.Knows name) scopes scope ∧ store.HasCondition name scope span

@[simp] theorem find?_empty (name : String) (scope : Span) : empty.find? name scope = none := rfl

@[simp] theorem find?_defer (store : DerivedStore) (n : String) (scopes : List Span)
    (name : String) (scope : Span) :
    (store.defer n scopes).find? name scope = store.find? name scope := rfl

@[simp] theorem find?_takeDeferred (store : DerivedStore) (name : String) (scope : Span) :
    store.takeDeferred.2.find? name scope = store.find? name scope := rfl

theorem find?_record (store : DerivedStore) (n : String) (s span : Span) (name : String)
    (scope : Span) :
    (store.record n s span).find? name scope =
      if name = n ∧ scope = s then some ⟨span, .pending⟩ else store.find? name scope :=
  find?_put n s _ store name scope

theorem find?_bindPlain (store : DerivedStore) (n : String) (s span : Span) (name : String)
    (scope : Span) :
    (store.bindPlain n s span).find? name scope =
      if name = n ∧ scope = s ∧ ¬ (store.find? n s).any (·.span = span) then
        some ⟨span, .plain⟩
      else store.find? name scope := by
  unfold bindPlain
  split
  · rename_i h
    rw [if_neg (fun hc => hc.2.2 h)]
  · rename_i h
    rw [find?_put]
    simp only [h, not_false_eq_true, and_true, Bool.false_eq_true]

/-- All that reading a name can do: nothing is known of it, or the nearest variable is a pending
condition, which is handed out, or it is anything else. -/
theorem consume_cases (name : String) (scopes : List Span) (store : DerivedStore) :
    (∀ s ∈ scopes, ¬ store.Knows name s) ∧ store.consume name scopes = (.unbound, store) ∨
    ∃ scope v, FirstWith (store.Knows name) scopes scope ∧ store.find? name scope = some v ∧
      (v.status = .pending ∧
          store.consume name scopes =
            (.derived v.span, store.put name scope ⟨v.span, .reported⟩) ∨
        v.status ≠ .pending ∧ store.consume name scopes = (.other, store)) := by
  induction scopes with
  | nil => exact Or.inl ⟨by simp, rfl⟩
  | cons s outer ih =>
    cases hs : store.find? name s with
    | none =>
      have hunknown : ¬ store.Knows name s := fun hk => hk hs
      have hskip : store.consume name (s :: outer) = store.consume name outer := by
        rw [consume, hs]
      rw [hskip]
      rcases ih with ⟨hnone, heq⟩ | ⟨scope, v, hfirst, hv, hcases⟩
      · refine Or.inl ⟨?_, heq⟩
        intro t ht
        rcases List.mem_cons.mp ht with rfl | ht
        · exact hunknown
        · exact hnone t ht
      · exact Or.inr ⟨scope, v, firstWith_tail hunknown hfirst, hv, hcases⟩
    | some v =>
      have hknown : store.Knows name s := by rw [Knows, hs]; simp
      refine Or.inr ⟨s, v, firstWith_head outer hknown, hs, ?_⟩
      obtain ⟨span, status⟩ := v
      cases status with
      | pending => exact Or.inl ⟨rfl, by rw [consume, hs]⟩
      | reported => exact Or.inr ⟨by simp, by rw [consume, hs]⟩
      | plain => exact Or.inr ⟨by simp, by rw [consume, hs]⟩

/-- Reading a name moves at most one condition on, the one that it answers with. -/
theorem find?_consume (n : String) (scopes : List Span) (store : DerivedStore) (name : String)
    (scope : Span) :
    (store.consume n scopes).2.find? name scope = store.find? name scope ∨
    n = name ∧ FirstWith (store.Knows name) scopes scope ∧ ∃ span,
      store.find? name scope = some ⟨span, .pending⟩ ∧
      (store.consume n scopes).1 = .derived span ∧
      (store.consume n scopes).2.find? name scope = some ⟨span, .reported⟩ := by
  rcases consume_cases n scopes store with ⟨-, heq⟩ | ⟨s, ⟨span, status⟩, hfirst, hv, hcases⟩
  · exact Or.inl (by rw [heq])
  rcases hcases with ⟨hst, heq⟩ | ⟨-, heq⟩
  · subst hst
    rw [heq, find?_put]
    by_cases hkey : name = n ∧ scope = s
    · obtain ⟨rfl, rfl⟩ := hkey
      exact Or.inr ⟨rfl, hfirst, span, hv, rfl, by simp⟩
    · exact Or.inl (if_neg hkey)
  · exact Or.inl (by rw [heq])

lemma consume_derived {name : String} {scopes : List Span} {store : DerivedStore} {span : Span}
    (h : (store.consume name scopes).1 = .derived span) : store.Finds name scopes span := by
  rcases consume_cases name scopes store with ⟨-, heq⟩ | ⟨scope, v, hfirst, hv, hcases⟩
  · rw [heq] at h
    cases h
  rcases hcases with ⟨hst, heq⟩ | ⟨-, heq⟩
  · rw [heq] at h
    obtain rfl := Resolution.derived.inj h
    exact ⟨scope, hfirst, .pending, by simp, by rw [hv, ← hst]⟩
  · rw [heq] at h
    cases h

/-- The nearest condition is no longer pending once its name has been read. -/
theorem consume_settles {name : String} {scopes : List Span} {store : DerivedStore}
    {scope span : Span} (hfirst : FirstWith (store.Knows name) scopes scope)
    (hhas : store.HasCondition name scope span) :
    (store.consume name scopes).2.find? name scope = some ⟨span, .reported⟩ := by
  obtain ⟨status, hcond, hfind⟩ := hhas
  rcases consume_cases name scopes store with ⟨hnone, -⟩ | ⟨s, v, hs, hv, hcases⟩
  · exact absurd hfirst.holds (hnone scope hfirst.mem)
  obtain rfl := hs.unique hfirst
  obtain rfl : v = ⟨span, status⟩ := Option.some.inj (hv.symm.trans hfind)
  rcases hcases with ⟨-, heq⟩ | ⟨hst, heq⟩
  · rw [heq, find?_put, if_pos ⟨rfl, rfl⟩]
  · rw [heq, hfind]
    cases status with
    | pending => exact absurd rfl hst
    | reported => rfl
    | plain => exact absurd rfl hcond

/-- Two stores know the same variables and differ at most in which conditions are reported. -/
def SameView (a b : DerivedStore) : Prop :=
  ∀ name scope, (a.find? name scope).map (fun v => (v.span, decide (v.status = .plain))) =
    (b.find? name scope).map (fun v => (v.span, decide (v.status = .plain)))

lemma SameView.trans {a b c : DerivedStore} (hab : SameView a b) (hbc : SameView b c) :
    SameView a c :=
  fun name scope => (hab name scope).trans (hbc name scope)

lemma SameView.symm {a b : DerivedStore} (h : SameView a b) : SameView b a :=
  fun name scope => (h name scope).symm

lemma find?_of_entries {a b : DerivedStore} (h : a.entries = b.entries) (name : String)
    (scope : Span) : a.find? name scope = b.find? name scope := by
  rw [find?, find?, h]

lemma SameView.knows_iff {a b : DerivedStore} (h : SameView a b) (name : String) (scope : Span) :
    a.Knows name scope ↔ b.Knows name scope := by
  have hns := congrArg Option.isSome (h name scope)
  rw [Option.isSome_map, Option.isSome_map] at hns
  rw [Knows, Knows, ← Option.isSome_iff_ne_none, ← Option.isSome_iff_ne_none, hns]

lemma SameView.knows_eq {a b : DerivedStore} (h : SameView a b) (name : String) :
    a.Knows name = b.Knows name :=
  funext fun scope => propext (h.knows_iff name scope)

lemma hasCondition_iff_view {store : DerivedStore} {name : String} {scope span : Span} :
    store.HasCondition name scope span ↔
      (store.find? name scope).map (fun v => (v.span, decide (v.status = .plain))) =
        some (span, false) := by
  rw [HasCondition, Option.map_eq_some_iff]
  constructor
  · rintro ⟨status, hcond, hfind⟩
    exact ⟨_, hfind, by simp [hcond]⟩
  · rintro ⟨⟨sp, status⟩, hfind, hview⟩
    obtain ⟨rfl, hcond⟩ := Prod.mk.inj hview
    exact ⟨status, of_decide_eq_false hcond, hfind⟩

lemma SameView.hasCondition_iff {a b : DerivedStore} (h : SameView a b) (name : String)
    (scope span : Span) : a.HasCondition name scope span ↔ b.HasCondition name scope span := by
  rw [hasCondition_iff_view, hasCondition_iff_view, h name scope]

lemma SameView.finds_iff {a b : DerivedStore} (h : SameView a b) (name : String)
    (scopes : List Span) (span : Span) : a.Finds name scopes span ↔ b.Finds name scopes span := by
  simp only [Finds, h.knows_eq, h.hasCondition_iff]

lemma SameView.put {a b : DerivedStore} (h : SameView a b) (name : String) (scope : Span)
    (v : Variable) : SameView (a.put name scope v) (b.put name scope v) := by
  intro n s
  rw [find?_put, find?_put]
  split
  · rfl
  · exact h n s

lemma SameView.bindPlain {a b : DerivedStore} (h : SameView a b) (name : String)
    (scope span : Span) : SameView (a.bindPlain name scope span) (b.bindPlain name scope span) := by
  have hsame : (a.find? name scope).any (·.span = span) =
      (b.find? name scope).any (·.span = span) := by
    have hview := congrArg (Option.any fun e => decide (e.1 = span)) (h name scope)
    rwa [Option.any_map, Option.any_map] at hview
  unfold DerivedStore.bindPlain
  rw [hsame]
  split
  · exact h
  · exact h.put name scope _

/-- Reading a name tells nothing new about the variables. -/
lemma sameView_consume (name : String) (scopes : List Span) (store : DerivedStore) :
    SameView (store.consume name scopes).2 store := by
  intro n s
  rcases find?_consume name scopes store n s with h | ⟨-, -, span, hold, -, hnew⟩
  · rw [h]
  · rw [hold, hnew]
    rfl

def pendings (p : String → Span → Bool) (store : DerivedStore) : Nat :=
  store.entries.countP fun e => e.2.status = .pending && p e.1.1 e.2.span

lemma pendings_put_le (p : String → Span → Bool) (store : DerivedStore) (name : String)
    (scope : Span) (v : Variable) :
    (store.put name scope v).pendings p ≤
      store.pendings p + if v.status = .pending && p name v.span then 1 else 0 := by
  rw [pendings, put, List.countP_cons, pendings]
  exact Nat.add_le_add_right (List.Sublist.countP_le List.filter_sublist) _

lemma pendings_record_le (p : String → Span → Bool) (store : DerivedStore) (name : String)
    (scope span : Span) :
    (store.record name scope span).pendings p ≤
      store.pendings p + if p name span then 1 else 0 := by
  simpa [record] using pendings_put_le p store name scope ⟨span, .pending⟩

lemma pendings_bindPlain_le (p : String → Span → Bool) (store : DerivedStore) (name : String)
    (scope span : Span) : (store.bindPlain name scope span).pendings p ≤ store.pendings p := by
  unfold bindPlain
  split
  · exact Nat.le_refl _
  · simpa using pendings_put_le p store name scope ⟨span, .plain⟩

/-- A condition that is marked as reported was counted before and is not counted after. -/
lemma pendings_settle (p : String → Span → Bool) {store : DerivedStore} {name : String}
    {scope span : Span} (h : store.find? name scope = some ⟨span, .pending⟩) :
    (store.put name scope ⟨span, .reported⟩).pendings p + (if p name span then 1 else 0) ≤
      store.pendings p := by
  have hmem : ((name, scope), (⟨span, .pending⟩ : Variable)) ∈ store.entries := by
    obtain ⟨before, after, heq, -⟩ := List.lookup_eq_some_iff.mp h
    rw [heq]
    simp
  have hsplit := List.countP_eq_countP_filter_add store.entries
    (fun e => e.2.status = .pending && p e.1.1 e.2.span) (fun e => e.1 ≠ (name, scope))
  have hlost : (if p name span then 1 else 0) ≤
      (store.entries.filter fun e => !decide (e.1 ≠ (name, scope))).countP
        fun e => e.2.status = .pending && p e.1.1 e.2.span := by
    split
    · rename_i hp
      exact List.countP_pos_iff.mpr ⟨_, List.mem_filter.mpr ⟨hmem, by simp⟩, by simpa using hp⟩
    · exact Nat.zero_le _
  rw [pendings, put, List.countP_cons, pendings, hsplit]
  simp only [reduceCtorEq, decide_false, Bool.false_and, Bool.false_eq_true, if_false,
    Nat.add_zero]
  exact Nat.add_le_add_left hlost _

/-- What a call of `consume` answers is taken off the pending conditions. -/
theorem pendings_consume (p : String → Span → Bool) (name : String) (scopes : List Span)
    (store : DerivedStore) :
    (∃ span, (store.consume name scopes).1 = .derived span ∧
      (store.consume name scopes).2.pendings p + (if p name span then 1 else 0) ≤
        store.pendings p) ∨
    (∀ span, (store.consume name scopes).1 ≠ .derived span) ∧
      (store.consume name scopes).2 = store := by
  rcases consume_cases name scopes store with ⟨-, heq⟩ | ⟨s, ⟨span, status⟩, -, hv, hcases⟩
  · exact Or.inr ⟨by simp [heq], by rw [heq]⟩
  rcases hcases with ⟨hst, heq⟩ | ⟨-, heq⟩
  · subst hst
    exact Or.inl ⟨span, by rw [heq], by rw [heq]; exact pendings_settle p hv⟩
  · exact Or.inr ⟨by simp [heq], by rw [heq]⟩

end JsxLint.DerivedStore
