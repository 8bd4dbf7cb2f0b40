/-! Taking a known beginning or ending off a text. -/
namespace JsxLint.Text

def dropHead? : (head : List Char) → List Char → Option (List Char)
  | [], cs => some cs
  | _ :: _, [] => none
  | h :: hs, c :: cs => if h = c then dropHead? hs cs else none

theorem dropHead?_eq_some_iff {head cs rest : List Char} :
    dropHead? head cs = some rest ↔ cs = head ++ rest := by
  fun_induction dropHead? head cs with
  | case1 cs => simp
  | case2 h hs => simp
  | case3 hs c cs ih => simp [ih]
  | case4 h hs c cs hne =>
    constructor
    · intro e; cases e
    · intro e; exact absurd (List.cons.inj e).1.symm hne

/-- What follows `head` in `s`, if `s` begins with it. -/
def afterHead? (head s : String) : Option String :=
  (dropHead? head.toList s.toList).map String.ofList

/-- What precedes `tail` in `s`, if `s` ends with it. -/
def beforeTail? (tail s : String) : Option String :=
  (dropHead? tail.toList.reverse s.toList.reverse).map fun cs => String.ofList cs.reverse

def endsWith (tail s : String) : Bool :=
  (beforeTail? tail s).isSome

theorem afterHead?_eq_some_iff {head s rest : String} :
    afterHead? head s = some rest ↔ s = head ++ rest := by
  rw [afterHead?, Option.map_eq_some_iff]
  constructor
  · rintro ⟨cs, h, rfl⟩
    rw [← String.toList_inj, String.toList_append, String.toList_ofList,
      dropHead?_eq_some_iff.1 h]
  · rintro rfl
    exact ⟨rest.toList, dropHead?_eq_some_iff.2 String.toList_append, String.ofList_toList⟩

theorem beforeTail?_eq_some_iff {tail s rest : String} :
    beforeTail? tail s = some rest ↔ s = rest ++ tail := by
  rw [beforeTail?, Option.map_eq_some_iff]
  constructor
  · rintro ⟨cs, h, rfl⟩
    have parts := congrArg List.reverse (dropHead?_eq_some_iff.1 h)
    rw [List.reverse_append, List.reverse_reverse, List.reverse_reverse] at parts
    rw [← String.toList_inj, String.toList_append, String.toList_ofList, parts]
  · rintro rfl
    refine ⟨rest.toList.reverse, dropHead?_eq_some_iff.2 ?_, ?_⟩
    · rw [String.toList_append, List.reverse_append]
    · rw [List.reverse_reverse, String.ofList_toList]

theorem endsWith_iff {tail s : String} : endsWith tail s = true ↔ ∃ rest, s = rest ++ tail := by
  simp only [endsWith, Option.isSome_iff_exists, beforeTail?_eq_some_iff]

end JsxLint.Text
