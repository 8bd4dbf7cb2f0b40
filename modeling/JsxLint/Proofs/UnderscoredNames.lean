import JsxLint.Name.Underscore
import JsxLint.Proofs.BooleanNames
import JsxLint.Rule.DerivedConditionalNaming

/-! How `boolean-naming` judges a name after `derived-conditional-naming` has put an underscore in
front of it. A name in the camel case register stays acceptable; one that is written in capitals
does not, because there is no register of capitals with an underscore in front. -/
namespace JsxLint.Name
open Text

lemma exists_underscore_of_head {word : String} (h : word.toList.head? = some '_') :
    ∃ rest, word = "_" ++ rest := by
  obtain ⟨cs, hcs⟩ := List.head?_eq_some_iff.mp h
  refine ⟨String.ofList cs, ?_⟩
  rw [← String.toList_inj]
  simp [hcs]

lemma uppercase_underscore (rest : String) : uppercase ("_" ++ rest) = "_" ++ uppercase rest := by
  have hself : capitals '_' = ['_'] := by decide
  rw [← String.toList_inj]
  simp [uppercase, hself]

/-- A word that a text with an underscore in front begins with has the underscore in front, too. -/
lemma exists_underscore_of_append {word after name : String} (hne : word ≠ "")
    (h : "_" ++ name = word ++ after) : ∃ rest, word = "_" ++ rest ∧ name = rest ++ after := by
  have hhead : word.toList.head? = some '_' := by
    have hlists := congrArg (fun s => s.toList.head?) h
    rw [head?_append hne] at hlists
    simpa using hlists.symm
  obtain ⟨rest, rfl⟩ := exists_underscore_of_head hhead
  rw [String.append_assoc] at h
  exact ⟨rest, rfl, (String.append_right_inj "_").mp h⟩

lemma opensCamel_underscore_iff {word name : String} (hne : word ≠ "") :
    opensCamel word ("_" ++ name) = true ↔
      ∃ rest, word = "_" ++ rest ∧ opensCamel rest name = true := by
  simp only [opensCamel_iff]
  constructor
  · rintro ⟨after, hsame, hupper⟩
    obtain ⟨rest, rfl, rfl⟩ := exists_underscore_of_append hne hsame
    exact ⟨rest, rfl, after, rfl, hupper⟩
  · rintro ⟨rest, rfl, after, rfl, hupper⟩
    exact ⟨after, String.append_assoc.symm, hupper⟩

lemma opensSnake_underscore_iff {word name : String} (hne : word ≠ "") :
    opensSnake word ("_" ++ name) = true ↔
      ∃ rest, word = "_" ++ rest ∧ opensSnake rest name = true := by
  simp only [opensSnake_iff]
  constructor
  · rintro ⟨after, hsame, hafter⟩
    have hword : word.toList.head? = some '_' := by
      cases hlist : word.toList with
      | nil => exact absurd (String.toList_eq_nil_iff.mp hlist) hne
      | cons c cs =>
        have hhead := congrArg (fun s => s.toList.head?) hsame
        simp only [uppercase, hlist, List.flatMap_cons, String.toList_append, String.toList_ofList,
          List.append_assoc, List.head?_append_of_ne_nil _ (capitals_ne_nil c)] at hhead
        rw [eq_underscore_of_capitals hhead.symm]
        rfl
    obtain ⟨rest, rfl⟩ := exists_underscore_of_head hword
    rw [uppercase_underscore] at hsame
    simp only [String.append_assoc, String.append_right_inj] at hsame
    exact ⟨rest, rfl, after, by rw [hsame, String.append_assoc], hafter⟩
  · rintro ⟨rest, rfl, after, rfl, hafter⟩
    exact ⟨after, by simp only [uppercase_underscore, String.append_assoc], hafter⟩

/-- A word opens a name with an underscore in front in the camel case register, or by having the
underscore itself. -/
lemma opensWith_underscore_iff {word name : String} : opensWith word ("_" ++ name) = true ↔
    word ≠ "" ∧ opensCamel word name = true ∨
    ∃ rest, word = "_" ++ rest ∧ (opensCamel rest name = true ∨ opensSnake rest name = true) := by
  rw [opensWith_iff]
  constructor
  · rintro ⟨hne, hcamel | hsnake | ⟨rest, hsame, hcamel⟩⟩
    · obtain ⟨rest, hword, hrest⟩ := (opensCamel_underscore_iff hne).mp hcamel
      exact Or.inr ⟨rest, hword, Or.inl hrest⟩
    · obtain ⟨rest, hword, hrest⟩ := (opensSnake_underscore_iff hne).mp hsnake
      exact Or.inr ⟨rest, hword, Or.inr hrest⟩
    · obtain rfl := (String.append_right_inj "_").mp hsame
      exact Or.inl ⟨hne, hcamel⟩
  · rintro (⟨hne, hcamel⟩ | ⟨rest, rfl, hrest⟩)
    · exact ⟨hne, Or.inr (Or.inr ⟨name, rfl, hcamel⟩)⟩
    · have hne : "_" ++ rest ≠ "" := fun hempty => by simp at hempty
      rcases hrest with hcamel | hsnake
      · exact ⟨hne, Or.inl ((opensCamel_underscore_iff hne).mpr ⟨rest, rfl, hcamel⟩)⟩
      · exact ⟨hne, Or.inr (Or.inl ((opensSnake_underscore_iff hne).mpr ⟨rest, rfl, hsnake⟩))⟩

lemma candidate?_of_isUnderscored {d : Declarator} {ident : Ident} (hident : d.ident? = some ident)
    (h : isUnderscored ident.name = true) : DerivedConditionalNaming.candidate? d = none := by
  cases hinit : d.init? <;> simp [DerivedConditionalNaming.candidate?, hident, hinit, h]

/-- An acceptable name stays so with an underscore in front exactly if it had one, a word opens it
in the camel case register, or a word with an underscore of its own opens it. -/
theorem isCompliant_underscored_iff (openers : List String) (name : String)
    (h : isCompliant openers name = true) :
    (isCompliant openers (underscored name) = true ↔
      isUnderscored name = true ∨
      (∃ word ∈ openers, word ≠ "" ∧ opensCamel word name = true) ∨
      ∃ rest, "_" ++ rest ∈ openers ∧
        (opensCamel rest name = true ∨ opensSnake rest name = true)) ∧
    ∀ (d : Declarator) (ident : Ident), d.ident? = some ident → ident.name = underscored name →
      DerivedConditionalNaming.candidate? d = none := by
  constructor
  · cases hname : isUnderscored name with
    | true =>
      rw [underscored, if_pos hname, h]
      simp
    | false =>
      rw [underscored, if_neg (by simp [hname]), isCompliant_iff]
      simp only [opensWith_underscore_iff, Bool.false_eq_true, false_or]
      constructor
      · rintro ⟨word, hmem, hcamel | ⟨rest, rfl, hrest⟩⟩
        · exact Or.inl ⟨word, hmem, hcamel⟩
        · exact Or.inr ⟨rest, hmem, hrest⟩
      · rintro (⟨word, hmem, hcamel⟩ | ⟨rest, hmem, hrest⟩)
        · exact ⟨word, hmem, Or.inl hcamel⟩
        · exact ⟨_, hmem, Or.inr ⟨rest, rfl, hrest⟩⟩
  · intro d ident hident hname
    exact candidate?_of_isUnderscored hident (hname ▸ isUnderscored_underscored name)

theorem isCompliant_underscored_iff_isOpen :
    isCompliant ["has", "is"] "isOpen" = true ∧
      isCompliant ["has", "is"] (underscored "isOpen") = true := by
  have hname : isCompliant ["has", "is"] "isOpen" = true := by decide
  refine ⟨hname, (isCompliant_underscored_iff _ _ hname).1.mpr (Or.inr (Or.inl ?_))⟩
  exact ⟨"is", by simp, by decide, by decide⟩

/-- For names in capitals the two rules do not agree: `IS_OPEN` is to get an underscore, and
`_IS_OPEN` is to get another `IS_`. -/
theorem not_isCompliant_underscored_snake :
    isCompliant ["is"] "IS_OPEN" = true ∧ underscored "IS_OPEN" = "_IS_OPEN" ∧
      isCompliant ["is"] "_IS_OPEN" = false ∧ propose ["is"] "_IS_OPEN" = "IS__IS_OPEN" := by
  decide

end JsxLint.Name
