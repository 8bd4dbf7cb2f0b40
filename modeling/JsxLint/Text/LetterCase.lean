import JsxLint.Text.CaseTable

/-! Letter case of single characters and of whole texts, read off the case tables.
A character may be cased and still have no capital of its own, and the first capital of an
expansion need not have the property `Uppercase`. -/
namespace JsxLint.Text

/-- The character has the property `Uppercase`. -/
def isUppercase (c : Char) : Bool :=
  uppercaseRuns.any (·.contains c.toNat)

def isLowercase (c : Char) : Bool :=
  lowercaseRuns.any (·.contains c.toNat)

def isCased (c : Char) : Bool :=
  isLowercase c || isUppercase c

/-- The capitals that a character is written with; most characters stay as they are. -/
def capitals (c : Char) : List Char :=
  match capitalExpansions.find? (·.1 == c.toNat) with
  | some (_, codes) => codes.map Char.ofNat
  | none =>
    match capitalShifts.find? (·.run.contains c.toNat) with
    | some shift => [Char.ofNat (c.toNat + shift.offset).toNat]
    | none => [c]

def uppercase (s : String) : String :=
  String.ofList (s.toList.flatMap capitals)

def capitalize (s : String) : String :=
  match s.toList with
  | [] => ""
  | c :: cs => String.ofList (capitals c ++ cs)

/-- The text begins with a capital of any alphabet. -/
def startsUppercase (s : String) : Bool :=
  s.toList.head?.any isUppercase

end JsxLint.Text
