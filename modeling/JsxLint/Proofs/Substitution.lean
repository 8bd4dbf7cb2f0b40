import JsxLint.Diagnostic.Template
import Mathlib.Data.List.DropRight

/-! Filling in a template is one pass from left to right. A template that was put together from
stretches of text and placeholders is read back as just these segments, whatever stands next to each
other: closing braces in the text, placeholders without text between them. So a value stands in the
result as it is, also where it looks like a placeholder. Nothing is said here of templates with
opening braces in their text. -/
namespace JsxLint

namespace Text

structure TrimsTo (text core : List Char) : Prop where
  parts : ∃ left right, text = left ++ core ++ right ∧
    (∀ c ∈ left, isBlank c = true) ∧ ∀ c ∈ right, isBlank c = true
  first : ∀ c, core.head? = some c → isBlank c = false
  last : ∀ c, core.getLast? = some c → isBlank c = false

lemma trimsTo_trim (text : List Char) : TrimsTo text (trim text) := by
  have hcore : trim text = (text.dropWhile isBlank).rdropWhile isBlank := rfl
  refine ⟨⟨text.takeWhile isBlank, (text.dropWhile isBlank).rtakeWhile isBlank, ?_, ?_, ?_⟩, ?_, ?_⟩
  · rw [hcore, List.append_assoc, List.rdropWhile_append_rtakeWhile,
      List.takeWhile_append_dropWhile]
  · exact fun c => List.mem_takeWhile_imp
  · exact fun c => List.mem_rtakeWhile_imp
  · intro c hc
    obtain ⟨rest, hrest⟩ := List.rdropWhile_prefix isBlank (text.dropWhile isBlank)
    have hhead : (text.dropWhile isBlank).head? = some c := by
      rw [← hrest, List.head?_append, ← hcore, hc, Option.some_or]
    have hnot := List.head?_dropWhile_not isBlank text
    rwa [hhead] at hnot
  · intro c hc
    rw [trim, List.getLast?_reverse] at hc
    have hnot := List.head?_dropWhile_not isBlank (text.dropWhile isBlank).reverse
    rwa [hc] at hnot

lemma dropWhile_eq_self {cs : List Char} (h : ∀ c, cs.head? = some c → isBlank c = false) :
    cs.dropWhile isBlank = cs := by
  cases cs with
  | nil => rfl
  | cons c cs => exact List.dropWhile_cons_of_neg (by simp [h c rfl])

lemma TrimsTo.trim_eq {text core : List Char} (h : TrimsTo text core) : trim text = core := by
  obtain ⟨left, right, rfl, hleft, hright⟩ := h.parts
  have hfront : (left ++ core ++ right).dropWhile isBlank = (core ++ right).dropWhile isBlank := by
    rw [List.append_assoc, List.dropWhile_append_of_pos hleft]
  have hback : (core ++ right).reverse.dropWhile isBlank = core.reverse := by
    rw [List.reverse_append,
      List.dropWhile_append_of_pos fun c hc => hright c (List.mem_reverse.mp hc)]
    exact dropWhile_eq_self fun c hc => h.last c (by rwa [List.head?_reverse] at hc)
  cases core with
  | nil =>
    have hblank : right.dropWhile isBlank = [] := List.dropWhile_eq_nil_iff.mpr hright
    rw [trim, hfront, List.nil_append, hblank]
    rfl
  | cons c core =>
    have hstart : (c :: core ++ right).dropWhile isBlank = c :: core ++ right :=
      dropWhile_eq_self fun d hd => h.first d hd
    rw [trim, hfront, hstart, hback, List.reverse_reverse]

/-- Trimming takes the white space off both ends and nothing else. -/
theorem trim_eq_iff {text core : List Char} : trim text = core ↔ TrimsTo text core :=
  ⟨fun h => h ▸ trimsTo_trim text, TrimsTo.trim_eq⟩

end Text

namespace Template

/-- A stretch of text without an opening brace, or a placeholder for a key without braces. -/
inductive Segment
  | text (content : List Char) (plain : '{' ∉ content)
  | placeholder (key : List Char) (plain : '{' ∉ key ∧ '}' ∉ key)

namespace Segment

def written : Segment → List Char
  | text content _ => content
  | placeholder key _ => ['{', '{'] ++ key ++ ['}', '}']

/-- The segment as it is to stand in the result: text and placeholders of unknown keys as they are
written, all other placeholders as the value of their key, white space around it left out. -/
def shown (data : Data) : Segment → List Char
  | text content _ => content
  | placeholder key plain =>
    match data.get? (String.ofList (Text.trim key)) with
    | some value => value.toList
    | none => (placeholder key plain).written

def pieces : Segment → List Piece
  | text content _ => content.map .text
  | placeholder key _ => [.placeholder key]

lemma flatMap_filled_pieces (data : Data) (segment : Segment) :
    segment.pieces.flatMap (·.filled data) = segment.shown data := by
  cases segment with
  | text content plain => simp [pieces, shown, Piece.filled, List.flatMap_map]
  | placeholder key plain =>
    simp only [pieces, shown, List.flatMap_singleton, Piece.filled]
    cases data.get? (String.ofList (Text.trim key)) with
    | some value => rfl
    | none => simp [written, Piece.written]

end Segment

lemma piecesFrom_text {content : List Char} (plain : '{' ∉ content) (rest : List Char) :
    piecesFrom none (content ++ rest) = content.map .text ++ piecesFrom none rest := by
  induction content with
  | nil => rfl
  | cons c content ih =>
    rw [List.mem_cons, not_or] at plain
    obtain ⟨hc, hcontent⟩ := plain
    have hstep : piecesFrom none (c :: (content ++ rest)) =
        .text c :: piecesFrom none (content ++ rest) :=
      piecesFrom.eq_2 c _ fun _ hopen _ => hc hopen.symm
    rw [List.cons_append, hstep, ih hcontent, List.map_cons, List.cons_append]

/-- A key is read up to the first pair of closing braces. -/
lemma piecesFrom_key {key : List Char} (plain : '}' ∉ key) (before rest : List Char) :
    piecesFrom (some before) (key ++ '}' :: '}' :: rest) =
      .placeholder (before ++ key) :: piecesFrom none rest := by
  induction key generalizing before with
  | nil => rw [List.nil_append, piecesFrom, List.append_nil]
  | cons c key ih =>
    rw [List.mem_cons, not_or] at plain
    obtain ⟨hc, hkey⟩ := plain
    have hstep : piecesFrom (some before) (c :: (key ++ '}' :: '}' :: rest)) =
        piecesFrom (some (before ++ [c])) (key ++ '}' :: '}' :: rest) :=
      piecesFrom.eq_5 before c _ fun _ hclose _ => hc hclose.symm
    rw [List.cons_append, hstep, ih hkey, List.append_assoc, List.singleton_append]

/-- A segment is read as its own pieces, and what follows it is read as if nothing had come
before. -/
lemma piecesFrom_segment (segment : Segment) (rest : List Char) :
    piecesFrom none (segment.written ++ rest) = segment.pieces ++ piecesFrom none rest := by
  cases segment with
  | text content plain => exact piecesFrom_text plain rest
  | placeholder key plain =>
    have hkey := piecesFrom_key plain.2 [] rest
    simpa [Segment.written, Segment.pieces, piecesFrom] using hkey

lemma piecesFrom_segments (segments : List Segment) :
    piecesFrom none (segments.flatMap Segment.written) = segments.flatMap Segment.pieces := by
  induction segments with
  | nil => rfl
  | cons segment segments ih =>
    rw [List.flatMap_cons, piecesFrom_segment, ih, List.flatMap_cons]

/-- A template made of segments is filled in segment by segment, and the key that a placeholder
stands for is what it holds but for white space at the ends. -/
theorem render_shows_segments (data : Data) (segments : List Segment) :
    render (String.ofList (segments.flatMap Segment.written)) data =
      String.ofList (segments.flatMap (·.shown data)) ∧
    ∀ written key, Text.trim written = key ↔ Text.TrimsTo written key := by
  refine ⟨?_, fun written key => Text.trim_eq_iff⟩
  rw [render, pieces, String.toList_ofList, piecesFrom_segments, List.flatMap_assoc]
  simp only [Segment.flatMap_filled_pieces]

/-- The value of `a` is written like a placeholder for `b`, and `c` has no value. -/
example : render "\x7b\x7b a \x7d\x7d\x7d\x7b\x7bb\x7d\x7d\x7b\x7bc\x7d\x7d"
    [("a", "\x7b\x7bb\x7d\x7d"), ("b", "x")] =
    "\x7b\x7bb\x7d\x7d\x7dx\x7b\x7bc\x7d\x7d" := by decide

end Template

end JsxLint
