import JsxLint.Text.Affix

/-! Names that mark a local render condition by a leading underscore. -/
namespace JsxLint.Name
open JsxLint.Text

def isUnderscored (name : String) : Bool :=
  (afterHead? "_" name).isSome

/-- The name with a leading underscore, added unless it is there. -/
def underscored (name : String) : String :=
  if isUnderscored name then name else "_" ++ name

theorem isUnderscored_iff {name : String} :
    isUnderscored name = true ↔ ∃ rest, name = "_" ++ rest := by
  simp only [isUnderscored, Option.isSome_iff_exists, afterHead?_eq_some_iff]

theorem isUnderscored_underscored (name : String) : isUnderscored (underscored name) = true := by
  unfold underscored
  split
  · assumption
  · exact isUnderscored_iff.2 ⟨name, rfl⟩

end JsxLint.Name
