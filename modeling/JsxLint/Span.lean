/-! Places in a source text, as byte offsets in its UTF-8 form. -/
namespace JsxLint

/-- The bytes from `start` up to but not including `stop`. Nothing is promised about the order
of the two or about the length of the text they refer to. -/
structure Span where
  start : Nat
  stop : Nat
  deriving DecidableEq, Repr, Inhabited

/-- Order by start, then by end. -/
def Span.le (a b : Span) : Bool :=
  decide (a.start < b.start ∨ a.start = b.start ∧ a.stop ≤ b.stop)

theorem Span.le_total (a b : Span) : (a.le b || b.le a) = true := by
  simp only [Span.le, Bool.or_eq_true, decide_eq_true_eq]; omega

theorem Span.le_trans {a b c : Span} (hab : a.le b = true) (hbc : b.le c = true) :
    a.le c = true := by
  simp only [Span.le, decide_eq_true_eq] at *; omega

theorem Span.le_antisymm {a b : Span} (hab : a.le b = true) (hba : b.le a = true) : a = b := by
  cases a; cases b
  simp only [Span.le, decide_eq_true_eq, Span.mk.injEq] at *; omega

end JsxLint
