import JsxLint.Proofs.BooleanNames

/-! Registers of names. A proposal for a boolean name stays in the register of the name, and it ends
like the name: all of a name in capitals is kept, and of any other name what follows its first cased
letter. The word in front is one of basic small letters; with other words a register may be lost. -/
namespace JsxLint.Name
open Text

/-- A name with a basic small letter in it is not in capitals. -/
lemma isUpperSnake_eq_false {name : String} {c : Char} (hc : c ∈ name.toList)
    (hlower : c.isLower = true) : isUpperSnake name = false := by
  by_contra hsnake
  rw [Bool.not_eq_false, isUpperSnake_iff] at hsnake
  obtain ⟨hlow, -⟩ := isLower_iff.mp hlower
  rcases hsnake.2 c hc with hupper | hdigit | rfl
  · rw [isUpper_eq_false hlower] at hupper
    cases hupper
  · have hcode := isDigit_iff.mp hdigit
    omega
  · exact absurd hlower (by decide)

lemma all_isUpper_capitals {c : Char} (h : c.isLower = true) :
    ∀ d ∈ capitals c, d.isUpper = true := by
  have hall := forall_isLower (p := fun c => (capitals c).all Char.isUpper = true) (by decide) h
  exact List.all_eq_true.mp hall

section Plain
variable {opener name : String} (hplain : isPlainWord opener = true)
include hplain

lemma isUpper_of_mem_uppercase {d : Char} (hd : d ∈ (uppercase opener).toList) :
    d.isUpper = true := by
  rw [uppercase, String.toList_ofList, List.mem_flatMap] at hd
  obtain ⟨c, hc, hd⟩ := hd
  exact all_isUpper_capitals (List.all_eq_true.mp hplain c hc) d hd

/-- A plain word in capitals may stand in front of a name in capitals. -/
lemma isUpperSnake_uppercase_append (h : isUpperSnake name = true) :
    isUpperSnake (uppercase opener ++ "_" ++ name) = true := by
  obtain ⟨⟨c, hc, hupper⟩, hall⟩ := isUpperSnake_iff.mp h
  simp only [isUpperSnake_iff, String.toList_append, List.mem_append]
  refine ⟨⟨c, Or.inr hc, hupper⟩, ?_⟩
  rintro d ((hd | hd) | hd)
  · exact Or.inl (isUpper_of_mem_uppercase hplain hd)
  · exact Or.inr (Or.inr (by simpa using hd))
  · exact hall d hd

variable (hne : opener ≠ "")
include hne

/-- A name with a plain word in it is not in capitals. -/
lemma isUpperSnake_append_plain (front rest : String) :
    isUpperSnake (front ++ (opener ++ rest)) = false := by
  obtain ⟨c, cs, hc, hlower⟩ := exists_head_of_isPlainWord hplain hne
  exact isUpperSnake_eq_false (c := c) (by simp [hc]) hlower

/-- A plain word brings no underscore of its own. -/
lemma isUnderscored_mark_append (name rest : String) :
    isUnderscored (mark name ++ (opener ++ rest)) = isUnderscored name := by
  cases hunder : isUnderscored name with
  | true =>
    rw [mark, if_pos hunder]
    exact isUnderscored_iff.mpr ⟨opener ++ rest, rfl⟩
  | false =>
    rw [mark, if_neg (by simp [hunder]), String.empty_append]
    by_contra hmark
    rw [Bool.not_eq_false, isUnderscored_iff] at hmark
    obtain ⟨after, hafter⟩ := hmark
    obtain ⟨c, cs, hc, hlower⟩ := exists_head_of_isPlainWord hplain hne
    have hlists := congrArg String.toList hafter
    simp only [String.toList_append, hc, List.cons_append] at hlists
    obtain ⟨rfl, -⟩ := List.cons.inj hlists
    exact absurd hlower (by decide)

end Plain

/-- `letter` is the first cased letter of the name, and `after` is what follows it. -/
def FirstLetter (name : String) (letter : Char) (after : String) : Prop :=
  ∃ before, name.toList = before ++ letter :: after.toList ∧
    (∀ c ∈ before, isCased c = false) ∧ isCased letter = true

/-- The stem of a name begins with its first cased letter. -/
lemma FirstLetter.toList_stem {name after : String} {letter : Char}
    (h : FirstLetter name letter after) : (stem name).toList = letter :: after.toList := by
  obtain ⟨before, hname, hbefore, hletter⟩ := h
  have hdrop : name.toList.dropWhile (!isCased ·) = letter :: after.toList := by
    rw [hname, List.dropWhile_append_of_pos (by simpa using hbefore),
      List.dropWhile_cons_of_neg (by simp [hletter])]
  rw [stem, hdrop, String.toList_ofList]

lemma FirstLetter.capitalize_stem {name after : String} {letter : Char}
    (h : FirstLetter name letter after) :
    capitalize (stem name) = String.ofList (capitals letter) ++ after := by
  rw [← String.toList_inj, toList_capitalize h.toList_stem, String.toList_append,
    String.toList_ofList]

lemma FirstLetter.exists_front {name after : String} {letter : Char}
    (h : FirstLetter name letter after) : ∃ front, name = front ++ after := by
  obtain ⟨before, hname, -, -⟩ := h
  refine ⟨String.ofList (before ++ [letter]), ?_⟩
  rw [← String.toList_inj]
  simp [hname]

/-- A proposal that opens with a word of basic small letters keeps the register of the name and ends
like it. -/
theorem propose_keeps_register (openers : List String) (name : String)
    (hplain : ∀ opener, openers.find? (· ≠ "") = some opener → isPlainWord opener = true) :
    isUpperSnake (propose openers name) = isUpperSnake name ∧
    (isUpperSnake name = false →
      isUnderscored (propose openers name) = isUnderscored name) ∧
    (isCompliant openers name = false →
      (isUpperSnake name = true → ∃ front, propose openers name = front ++ name) ∧
      (isUpperSnake name = false → ∀ letter after, FirstLetter name letter after →
        ∃ front, propose openers name = front ++ after)) := by
  cases hopener : openers.find? (· ≠ "") with
  | none =>
    have hsame : propose openers name = name := by rw [propose, hopener]
    rw [hsame]
    refine ⟨rfl, fun _ => rfl, fun _ => ⟨fun _ => ?_, fun _ letter after h => h.exists_front⟩⟩
    exact ⟨"", String.empty_append.symm⟩
  | some opener =>
    have hword := hplain opener hopener
    have hne : opener ≠ "" := by simpa using List.find?_some hopener
    cases hname : isCompliant openers name with
    | true =>
      rw [propose_of_isCompliant hname]
      exact ⟨rfl, fun _ => rfl, fun h => by cases h⟩
    | false =>
      cases hsnake : isUpperSnake name with
      | true =>
        rw [propose_snake hopener hname hsnake]
        refine ⟨isUpperSnake_uppercase_append hword hsnake, fun h => (by cases h), fun _ => ?_⟩
        exact ⟨fun _ => ⟨_, rfl⟩, fun h => by cases h⟩
      | false =>
        rw [propose_camel hopener hname hsnake]
        refine ⟨isUpperSnake_append_plain hword hne _ _,
          fun _ => isUnderscored_mark_append hword hne name _,
          fun _ => ⟨fun h => (by cases h), fun _ letter after h => ?_⟩⟩
        rw [h.capitalize_stem, ← String.append_assoc, ← String.append_assoc]
        exact ⟨_, rfl⟩

theorem propose_keeps_register_sharpS :
    let name := "_9ßtate"
    isCompliant ["", "has", "Is"] name = false ∧ isUpperSnake name = false ∧
      FirstLetter name 'ß' "tate" ∧ propose ["", "has", "Is"] name = "_hasSState" ∧
      isUnderscored "_hasSState" = isUnderscored name ∧
      ∃ front, "_hasSState" = front ++ "tate" := by
  have hname : isCompliant ["", "has", "Is"] "_9ßtate" = false := by decide
  have hsnake : isUpperSnake "_9ßtate" = false := by decide
  have hletter : FirstLetter "_9ßtate" 'ß' "tate" := by
    refine ⟨['_', '9'], by decide, fun c hc => ?_, by decide⟩
    rcases List.mem_pair.mp hc with rfl | rfl <;> decide
  have hproposal : propose ["", "has", "Is"] "_9ßtate" = "_hasSState" := by decide
  obtain ⟨-, hmark, hrest⟩ := propose_keeps_register ["", "has", "Is"] "_9ßtate" (by decide)
  exact ⟨hname, hsnake, hletter, hproposal, hproposal ▸ hmark hsnake,
    hproposal ▸ (hrest hname).2 hsnake _ _ hletter⟩

end JsxLint.Name
