import JsxLint.Text.Affix
import JsxLint.Text.LetterCase
import JsxLint.Text.Slice

/-! Names of boolean values. A required word such as `is` may open a name in three registers:
`isOpen`, `IS_OPEN` and `_isOpen`. A proposed name stays in the register of the given one. -/
namespace JsxLint.Name
open JsxLint.Text

def booleanVerbs : List String :=
  ["is", "has", "can", "should", "will", "does", "did", "was", "were", "am", "are", "be"]

/-- Whether what stands before the first basic capital is one of the verbs. The name is cut at a
byte offset, and there is no answer if the cut would fall inside a character. -/
def readsBoolean? (name : String) : Option Bool :=
  match offset? Char.isUpper name.toList with
  | some (n + 1) =>
    (splitAt? (n + 1) name.toList).map fun (head, _) => booleanVerbs.contains (String.ofList head)
  | _ => some false

/-- A character begins where the name is cut, so there always is an answer. -/
theorem readsBoolean?_isSome (name : String) : (readsBoolean? name).isSome = true := by
  rw [readsBoolean?]
  split
  · rename_i n hoffset
    obtain ⟨before, c, after, hname, -, -, hlength⟩ := offset?_eq_some_iff.1 hoffset
    rw [splitAt?_eq_some_iff.2 ⟨hname, hlength⟩]
    rfl
  · rfl

def isBooleanLike (name : String) : Bool :=
  (readsBoolean? name).get (readsBoolean?_isSome name)

theorem readsBoolean?_eq_some (name : String) : readsBoolean? name = some (isBooleanLike name) :=
  (Option.some_get _).symm

/-- Only basic capitals, digits and underscores, with at least one capital. -/
def isUpperSnake (name : String) : Bool :=
  name.toList.any Char.isUpper &&
    name.toList.all fun c => c.isUpper || c.isDigit || c == '_'

/-- The name is `opener` followed by a capital, as in `isOpen`. -/
def opensCamel (opener name : String) : Bool :=
  (afterHead? opener name).any startsUppercase

/-- The name is `opener` in capitals, an underscore and something more, as in `IS_OPEN`. -/
def opensSnake (opener name : String) : Bool :=
  (afterHead? (uppercase opener ++ "_") name).any (· ≠ "")

/-- The name opens with the word `opener` in one of the three registers. The empty word opens
no name. -/
def opensWith (opener name : String) : Bool :=
  opener ≠ "" &&
    (opensCamel opener name || opensSnake opener name ||
      (afterHead? "_" name).any (opensCamel opener))

def isCompliant (openers : List String) (name : String) : Bool :=
  openers.any (opensWith · name)

/-- The name from its first cased letter on, or a stand-in for a name without one. -/
def stem (name : String) : String :=
  match name.toList.dropWhile (!isCased ·) with
  | [] => "Value"
  | letters => String.ofList letters

/-- A name that opens with the first word that is not empty. A name that complies already is
kept, and so is every name if there is no such word. -/
def propose (openers : List String) (name : String) : String :=
  match openers.find? (· ≠ "") with
  | none => name
  | some opener =>
    if isCompliant openers name then name
    else if isUpperSnake name then uppercase opener ++ "_" ++ name
    else if (afterHead? "_" name).isSome then "_" ++ opener ++ capitalize (stem name)
    else opener ++ capitalize (stem name)

structure Decision where
  name : String
  openers : List String
  compliant : Bool
  proposal? : Option String
  deriving DecidableEq, Repr

def decision (openers : List String) (name : String) : Decision where
  name := name
  openers := openers
  compliant := isCompliant openers name
  proposal? := if isCompliant openers name then none else some (propose openers name)

theorem propose_of_isCompliant {openers : List String} {name : String}
    (h : isCompliant openers name = true) : propose openers name = name := by
  unfold propose
  split
  · rfl
  · rw [if_pos h]

theorem decision_proposal?_eq_none_iff (openers : List String) (name : String) :
    (decision openers name).proposal? = none ↔ isCompliant openers name = true := by
  simp [decision]

end JsxLint.Name
