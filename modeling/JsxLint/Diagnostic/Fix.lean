import JsxLint.Text.Slice

/-! Replacements in a source text. Fixes are made in source order; one that overlaps an earlier
one, is reversed, reaches outside the text or cuts a character is left out. -/
namespace JsxLint

structure Fix where
  span : Span
  replacement : String
  message? : Option String := none
  deriving DecidableEq, Repr

namespace Fix

/-- Make the fixes, given in source order, in the text `rest` that begins at byte `cursor`. -/
def applySorted (cursor : Nat) (rest : List Char) : List Fix → List Char
  | [] => rest
  | fix :: fixes =>
    if fix.span.start < cursor ∨ fix.span.stop < fix.span.start then
      applySorted cursor rest fixes
    else
      match Text.splitAt? (fix.span.start - cursor) rest with
      | none => applySorted cursor rest fixes
      | some (kept, tail) =>
        match Text.splitAt? (fix.span.stop - fix.span.start) tail with
        | none => applySorted cursor rest fixes
        | some (_, after) =>
          kept ++ fix.replacement.toList ++ applySorted fix.span.stop after fixes

/-- Make the fixes in a text. Fixes with the same span are taken in the order given. -/
def apply (source : String) (fixes : List Fix) : String :=
  String.ofList (applySorted 0 source.toList (fixes.mergeSort fun a b => a.span.le b.span))

end Fix

end JsxLint
