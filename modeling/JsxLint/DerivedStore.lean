import JsxLint.Span

/-! The variables seen so far in a file, by name and owning scope, with what is known of each:
whether it is a derived condition, and whether that has been reported. A gate read before the
variable it names is kept until the whole file has been seen. -/
namespace JsxLint

inductive Status
  /-- A derived condition that no gate has read yet. -/
  | pending
  | reported
  /-- Any other variable or parameter. -/
  | plain
  deriving DecidableEq, Repr

structure Variable where
  span : Span
  status : Status
  deriving DecidableEq, Repr

inductive Resolution
  /-- A derived condition, handed out once, with the place of its declaration. -/
  | derived (span : Span)
  /-- Another variable, or a condition reported before. -/
  | other
  | unbound
  deriving DecidableEq, Repr

/-- A gate that reads `name` with the scopes around it, the innermost first. -/
structure DeferredGate where
  name : String
  scopes : List Span
  deriving DecidableEq, Repr

/-- The variables seen so far and the gates still to be resolved. Each pair of name and scope
occurs once. -/
structure DerivedStore where
  entries : List ((String × Span) × Variable)
  deferred : List DeferredGate
  deriving DecidableEq, Repr

namespace DerivedStore

def empty : DerivedStore := ⟨[], []⟩

def find? (name : String) (scope : Span) (store : DerivedStore) : Option Variable :=
  store.entries.lookup (name, scope)

/-- Enter a variable, in the place of the one with the same name and scope. -/
def put (name : String) (scope : Span) (v : Variable) (store : DerivedStore) : DerivedStore :=
  { store with
    entries := ((name, scope), v) :: store.entries.filter (·.1 ≠ (name, scope)) }

def record (name : String) (scope span : Span) (store : DerivedStore) : DerivedStore :=
  store.put name scope ⟨span, .pending⟩

/-- Enter a variable or parameter declared at `span`, unless it is the one already there. -/
def bindPlain (name : String) (scope span : Span) (store : DerivedStore) : DerivedStore :=
  if (store.find? name scope).any (·.span = span) then store
  else store.put name scope ⟨span, .plain⟩

/-- Resolve `name` to the variable of the nearest scope that has it. A pending condition is
handed out and counts as reported from then on. -/
def consume (name : String) : List Span → DerivedStore → Resolution × DerivedStore
  | [], store => (.unbound, store)
  | scope :: outer, store =>
    match store.find? name scope with
    | none => consume name outer store
    | some ⟨span, .pending⟩ => (.derived span, store.put name scope ⟨span, .reported⟩)
    | some _ => (.other, store)

def defer (name : String) (scopes : List Span) (store : DerivedStore) : DerivedStore :=
  { store with deferred := store.deferred ++ [⟨name, scopes⟩] }

def takeDeferred (store : DerivedStore) : List DeferredGate × DerivedStore :=
  (store.deferred, { store with deferred := [] })

/-- The name is a pending condition in `scope`. -/
def contains (name : String) (scope : Span) (store : DerivedStore) : Bool :=
  (store.find? name scope).any (·.status = .pending)

def pendingCount (store : DerivedStore) : Nat :=
  store.entries.countP (·.2.status = .pending)

theorem find?_put (name : String) (scope : Span) (v : Variable) (store : DerivedStore)
    (name' : String) (scope' : Span) :
    (store.put name scope v).find? name' scope' =
      if name' = name ∧ scope' = scope then some v else store.find? name' scope' := by
  have skip (l : List ((String × Span) × Variable)) (h : (name', scope') ≠ (name, scope)) :
      (l.filter (·.1 ≠ (name, scope))).lookup (name', scope') = l.lookup (name', scope') := by
    induction l with
    | nil => rfl
    | cons e l ih =>
      obtain ⟨k, w⟩ := e
      by_cases hk : k = (name, scope)
      · have hne : ((name', scope') == k) = false := by
          rw [hk]; exact beq_eq_false_iff_ne.2 h
        rw [List.filter_cons_of_neg (by simp [hk]), ih, List.lookup_cons, hne]
      · rw [List.filter_cons_of_pos (by simp [hk]), List.lookup_cons, List.lookup_cons, ih]
  by_cases h : name' = name ∧ scope' = scope
  · obtain ⟨rfl, rfl⟩ := h
    simp [find?, put]
  · have hne : (name', scope') ≠ (name, scope) := fun e => h (Prod.mk.inj e)
    simp only [find?, put, List.lookup_cons, beq_eq_false_iff_ne.2 hne, if_neg h]
    exact skip store.entries hne

end DerivedStore

end JsxLint
