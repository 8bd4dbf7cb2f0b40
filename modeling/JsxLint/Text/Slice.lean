import JsxLint.Span

/-! Cutting a text at byte offsets. A cut is made only where a character begins or the text
ends, so every piece is again a text. -/
namespace JsxLint.Text

def byteLength : List Char → Nat
  | [] => 0
  | c :: cs => c.utf8Size + byteLength cs

/-- The text before and after the first `n` bytes, unless the text is shorter or the cut would
fall inside a character. -/
def splitAt? : Nat → List Char → Option (List Char × List Char)
  | 0, cs => some ([], cs)
  | _ + 1, [] => none
  | n + 1, c :: cs =>
    if c.utf8Size ≤ n + 1 then
      (splitAt? (n + 1 - c.utf8Size) cs).map fun (before, after) => (c :: before, after)
    else none

theorem byteLength_append (a b : List Char) :
    byteLength (a ++ b) = byteLength a + byteLength b := by
  induction a with
  | nil => simp [byteLength]
  | cons c cs ih => simp [byteLength, ih, Nat.add_assoc]

/-- A cut succeeds exactly at the byte lengths of the beginnings of the text. -/
theorem splitAt?_eq_some_iff {n : Nat} {cs before after : List Char} :
    splitAt? n cs = some (before, after) ↔ cs = before ++ after ∧ byteLength before = n := by
  fun_induction splitAt? n cs generalizing before after with
  | case1 cs =>
    constructor
    · intro h; cases h; exact ⟨rfl, rfl⟩
    · rintro ⟨rfl, h⟩
      cases before with
      | nil => rfl
      | cons c before =>
        have := c.utf8Size_pos
        simp only [byteLength] at h; omega
  | case2 n =>
    constructor
    · intro h; cases h
    · rintro ⟨h, hn⟩
      cases before with
      | nil => simp [byteLength] at hn
      | cons c before => simp at h
  | case3 n c cs hc ih =>
    rw [Option.map_eq_some_iff]
    constructor
    · rintro ⟨⟨l, r⟩, hp, he⟩
      obtain ⟨rfl, hl⟩ := ih.1 hp
      cases he
      exact ⟨rfl, by simp only [byteLength]; omega⟩
    · rintro ⟨h, hn⟩
      cases before with
      | nil => simp [byteLength] at hn
      | cons d before =>
        obtain ⟨rfl, rfl⟩ := List.cons.inj h
        exact ⟨(before, after), ih.2 ⟨rfl, by simp only [byteLength] at hn; omega⟩, rfl⟩
  | case4 n c cs hc =>
    constructor
    · intro h; cases h
    · rintro ⟨h, hn⟩
      cases before with
      | nil => simp [byteLength] at hn
      | cons d before =>
        obtain ⟨rfl, rfl⟩ := List.cons.inj h
        simp only [byteLength] at hn; omega

example : splitAt? 3 "aé日".toList = some (['a', 'é'], ['日']) ∧ splitAt? 2 "aé日".toList = none := by
  decide

def offset? (p : Char → Bool) : List Char → Option Nat
  | [] => none
  | c :: cs => if p c then some 0 else (offset? p cs).map (c.utf8Size + ·)

theorem offset?_eq_none_iff {p : Char → Bool} {cs : List Char} :
    offset? p cs = none ↔ ∀ c ∈ cs, p c = false := by
  fun_induction offset? p cs with
  | case1 => simp
  | case2 c cs hc => simp [hc]
  | case3 c cs hc ih => simp [hc, ih]

/-- The offset is the byte length of what stands before the first such character. -/
theorem offset?_eq_some_iff {p : Char → Bool} {cs : List Char} {n : Nat} :
    offset? p cs = some n ↔ ∃ before c after, cs = before ++ c :: after ∧
      (∀ d ∈ before, p d = false) ∧ p c = true ∧ byteLength before = n := by
  fun_induction offset? p cs generalizing n with
  | case1 => simp
  | case2 c cs hc =>
    constructor
    · intro h; cases h; exact ⟨[], c, cs, rfl, by simp, hc, rfl⟩
    · rintro ⟨before, d, after, hcs, hbefore, -, rfl⟩
      cases before with
      | nil => rfl
      | cons b before =>
        obtain ⟨rfl, -⟩ := List.cons.inj hcs
        rw [hbefore c List.mem_cons_self] at hc
        cases hc
  | case3 c cs hc ih =>
    rw [Option.map_eq_some_iff]
    constructor
    · rintro ⟨m, hm, rfl⟩
      obtain ⟨before, d, after, rfl, hbefore, hd, rfl⟩ := ih.1 hm
      exact ⟨c :: before, d, after, rfl, by simpa [hc] using hbefore, hd, rfl⟩
    · rintro ⟨before, d, after, hcs, hbefore, hd, rfl⟩
      cases before with
      | nil =>
        obtain ⟨rfl, -⟩ := List.cons.inj hcs
        exact absurd hd hc
      | cons b before =>
        obtain ⟨rfl, rfl⟩ := List.cons.inj hcs
        have hrest := fun d hd => hbefore d (List.mem_cons_of_mem c hd)
        exact ⟨byteLength before, ih.2 ⟨before, d, after, rfl, hrest, hd, rfl⟩, rfl⟩

/-- The characters of a span; `none` for a span that is reversed, out of range or inside a
character. -/
def slice? (span : Span) (cs : List Char) : Option (List Char) :=
  if span.start ≤ span.stop then
    (splitAt? span.start cs).bind fun (_, rest) =>
      (splitAt? (span.stop - span.start) rest).map (·.1)
  else none

/-- The text of a span, empty where there is none. -/
def slice (source : String) (span : Span) : String :=
  ((slice? span source.toList).map String.ofList).getD ""

end JsxLint.Text
