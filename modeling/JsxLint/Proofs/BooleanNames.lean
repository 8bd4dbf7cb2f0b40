import JsxLint.Name.Underscore
import JsxLint.Proofs.LetterCase
import JsxLint.Rule.BooleanNaming

/-! Names that `boolean-naming` accepts, and what becomes of a name that follows its proposal. The
rule accepts its own proposal if the first cased letter of the name has a capital. Letters such as
`ª` are cased and have none, and a name that begins with one of them is proposed a name that is
reported again. -/
namespace JsxLint

namespace Name
open Text

lemma opensCamel_iff {opener name : String} : opensCamel opener name = true ↔
    ∃ rest, name = opener ++ rest ∧ startsUppercase rest = true := by
  simp only [opensCamel, Option.any_eq_true, afterHead?_eq_some_iff]

lemma opensSnake_iff {opener name : String} : opensSnake opener name = true ↔
    ∃ rest, name = uppercase opener ++ "_" ++ rest ∧ rest ≠ "" := by
  simp only [opensSnake, Option.any_eq_true, afterHead?_eq_some_iff, decide_eq_true_eq]

lemma opensWith_iff {opener name : String} : opensWith opener name = true ↔
    opener ≠ "" ∧ (opensCamel opener name = true ∨ opensSnake opener name = true ∨
      ∃ rest, name = "_" ++ rest ∧ opensCamel opener rest = true) := by
  simp only [opensWith, Bool.and_eq_true, Bool.or_eq_true, decide_eq_true_eq, Option.any_eq_true,
    afterHead?_eq_some_iff, or_assoc]

lemma isCompliant_iff {openers : List String} {name : String} :
    isCompliant openers name = true ↔ ∃ word ∈ openers, opensWith word name = true := by
  rw [isCompliant, List.any_eq_true]

lemma isUpperSnake_iff {name : String} : isUpperSnake name = true ↔
    (∃ c ∈ name.toList, c.isUpper = true) ∧
      ∀ c ∈ name.toList, c.isUpper = true ∨ c.isDigit = true ∨ c = '_' := by
  simp only [isUpperSnake, Bool.and_eq_true, List.any_eq_true, List.all_eq_true, Bool.or_eq_true,
    beq_iff_eq, or_assoc]

/-- The first cased letter of the name, if it has one, has a capital. -/
def firstLetterHasCapital (name : String) : Bool :=
  (name.toList.find? isCased).all hasCapital

lemma find?_isCased (cs : List Char) :
    cs.find? isCased = (cs.dropWhile (!isCased ·)).head? := by
  induction cs with
  | nil => rfl
  | cons c cs ih => cases hc : isCased c <;> simp [hc, ih]

lemma startsUppercase_capitalize_stem (name : String) :
    startsUppercase (capitalize (stem name)) = firstLetterHasCapital name := by
  rw [firstLetterHasCapital, find?_isCased, stem]
  cases name.toList.dropWhile (!isCased ·) with
  | nil => decide
  | cons c cs => exact startsUppercase_capitalize String.toList_ofList

/-- In a name of capitals, digits and underscores the first cased letter is a capital. -/
lemma firstLetterHasCapital_of_isUpperSnake {name : String} (h : isUpperSnake name = true) :
    firstLetterHasCapital name = true := by
  rw [firstLetterHasCapital, Option.all_eq_true]
  intro c hc
  have hcased := List.find?_some hc
  rcases (isUpperSnake_iff.mp h).2 c (List.mem_of_find?_eq_some hc) with hupper | hdigit | rfl
  · exact hasCapital_of_isUpper hupper
  · have hcode := isDigit_iff.mp hdigit
    rw [isCased_of_lt (by omega)] at hcased
    cases hcased
  · exact absurd hcased (by decide)

def mark (name : String) : String :=
  if isUnderscored name then "_" else ""

lemma mark_mem (name : String) : mark name ∈ ["", "_"] := by
  unfold mark
  split <;> simp

section Proposal
variable {openers : List String} {opener name : String}
  (hopener : openers.find? (· ≠ "") = some opener) (hname : isCompliant openers name = false)
include hopener hname

lemma propose_snake (hsnake : isUpperSnake name = true) :
    propose openers name = uppercase opener ++ "_" ++ name := by
  rw [propose, hopener]
  simp only [hname, hsnake, Bool.false_eq_true, if_false, if_true]

lemma propose_camel (hsnake : isUpperSnake name = false) :
    propose openers name = mark name ++ (opener ++ capitalize (stem name)) := by
  rw [propose, hopener]
  simp only [hname, hsnake, Bool.false_eq_true, if_false]
  rw [← isUnderscored, mark]
  split
  · rw [String.append_assoc]
  · rw [String.empty_append]

/-- A name that does not comply gets the capitals of a word in front, or the word itself with the
name capitalized after it. -/
lemma propose_cases :
    isUpperSnake name = true ∧ propose openers name = uppercase opener ++ "_" ++ name ∨
    ∃ mark ∈ ["", "_"], propose openers name = mark ++ (opener ++ capitalize (stem name)) := by
  cases hsnake : isUpperSnake name with
  | true => exact Or.inl ⟨rfl, propose_snake hopener hname hsnake⟩
  | false => exact Or.inr ⟨mark name, mark_mem name, propose_camel hopener hname hsnake⟩

end Proposal

example : (propose ["is"] "visible", propose ["is"] "VISIBLE", propose ["is"] "_visible",
    propose ["", "has"] "$visible", propose ["is"] "_") =
    ("isVisible", "IS_VISIBLE", "_isVisible", "hasVisible", "_isValue") := by decide

lemma opensWith_of_mark {mark opener rest : String} (hmark : mark ∈ ["", "_"])
    (hopener : opener ≠ "") (hrest : startsUppercase rest = true) :
    opensWith opener (mark ++ (opener ++ rest)) = true := by
  have hcamel : opensCamel opener (opener ++ rest) = true := opensCamel_iff.mpr ⟨rest, rfl, hrest⟩
  rw [List.mem_pair] at hmark
  rcases hmark with rfl | rfl
  · rw [String.empty_append]
    exact opensWith_iff.mpr ⟨hopener, Or.inl hcamel⟩
  · exact opensWith_iff.mpr ⟨hopener, Or.inr (Or.inr ⟨_, rfl, hcamel⟩)⟩

lemma exists_opener {openers : List String} (hword : ∃ word ∈ openers, word ≠ "") :
    ∃ opener, openers.find? (· ≠ "") = some opener ∧ opener ∈ openers ∧ opener ≠ "" := by
  obtain ⟨word, hmem, hne⟩ := hword
  obtain ⟨opener, hopener⟩ : ∃ opener, openers.find? (· ≠ "") = some opener :=
    Option.isSome_iff_exists.mp (List.find?_isSome.mpr ⟨word, hmem, by simpa using hne⟩)
  exact ⟨opener, hopener, List.mem_of_find?_eq_some hopener, by simpa using List.find?_some hopener⟩

/-- A proposal for a name whose first letter has a capital complies. -/
theorem isCompliant_propose {openers : List String} {name : String}
    (hword : ∃ word ∈ openers, word ≠ "") (hfirst : firstLetterHasCapital name = true) :
    isCompliant openers (propose openers name) = true := by
  cases hname : isCompliant openers name with
  | true => rw [propose_of_isCompliant hname, hname]
  | false =>
    obtain ⟨opener, hopener, hmem, hne⟩ := exists_opener hword
    refine isCompliant_iff.mpr ⟨opener, hmem, ?_⟩
    rcases propose_cases hopener hname with ⟨hupper, hsnake⟩ | ⟨mark, hmark, hcamel⟩
    · have hrest : name ≠ "" := by
        rintro rfl
        exact absurd hupper (by decide)
      rw [hsnake]
      exact opensWith_iff.mpr ⟨hne, Or.inr (Or.inl (opensSnake_iff.mpr ⟨name, rfl, hrest⟩))⟩
    · rw [hcamel]
      exact opensWith_of_mark hmark hne (startsUppercase_capitalize_stem name ▸ hfirst)

/-- The word is made of basic small letters. -/
def isPlainWord (word : String) : Bool :=
  word.toList.all Char.isLower

lemma exists_head_of_isPlainWord {word : String} (hplain : isPlainWord word = true)
    (hne : word ≠ "") : ∃ c cs, word.toList = c :: cs ∧ c.isLower = true := by
  cases hword : word.toList with
  | nil => exact absurd (String.toList_eq_nil_iff.mp hword) hne
  | cons c cs => exact ⟨c, cs, rfl, List.all_eq_true.mp hplain c (by simp [hword])⟩

/-- A plain word in capitals begins with a basic capital. -/
lemma isUpper_head_of_opensSnake {word name : String} (hplain : isPlainWord word = true)
    (hne : word ≠ "") (h : opensSnake word name = true) :
    name.toList.head?.any Char.isUpper = true := by
  obtain ⟨c, cs, hc, hlower⟩ := exists_head_of_isPlainWord hplain hne
  obtain ⟨rest, rfl, -⟩ := opensSnake_iff.mp h
  rw [uppercase, hc, List.flatMap_cons]
  simp only [String.toList_append, String.toList_ofList, List.append_assoc]
  rw [List.head?_append_of_ne_nil _ (capitals_ne_nil c)]
  exact isUpper_of_isLower hlower

section Plain
variable {mark word opener rest : String} (hword : isPlainWord word = true)
  (hopener : isPlainWord opener = true) (hrest : startsUppercase rest = false)
  (hhead : ∀ c, rest.toList.head? = some c → c.isLower = false)
include hword hopener hrest hhead

/-- Plain words do not run into each other: none opens another one that is followed by neither a
capital nor a basic small letter. -/
lemma opensCamel_plain : opensCamel word (opener ++ rest) = false := by
  rw [Bool.eq_false_iff]
  intro hcamel
  obtain ⟨after, hsame, hupper⟩ := opensCamel_iff.mp hcamel
  have hnone (c : Char) (hc : c ∈ opener.toList) : isUppercase c = false :=
    isUppercase_of_isLower (List.all_eq_true.mp hopener c hc)
  obtain ⟨middle, hne, rfl, rfl⟩ := exists_middle hnone hrest hupper hsame
  obtain ⟨c, cs, hc⟩ := List.exists_cons_of_ne_nil (toList_ne_nil hne)
  have hlower := List.all_eq_true.mp hword c (by simp [hc])
  rw [hhead c (by simp [hc])] at hlower
  cases hlower

/-- A plain word opens no name in which a plain word is followed by neither a capital nor a basic
small letter, with or without an underscore in front. -/
lemma opensWith_plain (hmark : mark ∈ ["", "_"]) (hne : opener ≠ "") :
    opensWith word (mark ++ (opener ++ rest)) = false := by
  rw [Bool.eq_false_iff]
  intro hopens
  obtain ⟨hwordne, hopens⟩ := opensWith_iff.mp hopens
  obtain ⟨c, cs, hc, hclower⟩ := exists_head_of_isPlainWord hword hwordne
  obtain ⟨d, ds, hd, hdlower⟩ := exists_head_of_isPlainWord hopener hne
  have hcamel := opensCamel_plain hword hopener hrest hhead
  rw [List.mem_pair] at hmark
  rcases hmark with rfl | rfl
  · rw [String.empty_append] at hopens
    rcases hopens with hopens | hopens | ⟨after, hopens, -⟩
    · simp [hcamel] at hopens
    · have hupper := isUpper_head_of_opensSnake hword hwordne hopens
      simp [hd, isUpper_eq_false hdlower] at hupper
    · have hlists := congrArg String.toList hopens
      simp only [String.toList_append, hd, List.cons_append] at hlists
      obtain ⟨rfl, -⟩ := List.cons.inj hlists
      exact absurd hdlower (by decide)
  · rcases hopens with hopens | hopens | ⟨after, hopens, hafter⟩
    · obtain ⟨after, hsame, -⟩ := opensCamel_iff.mp hopens
      have hlists := congrArg String.toList hsame
      simp only [String.toList_append, hc, List.cons_append] at hlists
      obtain ⟨rfl, -⟩ := List.cons.inj hlists
      exact absurd hclower (by decide)
    · have hupper := isUpper_head_of_opensSnake hword hwordne hopens
      simp at hupper
    · obtain rfl := (String.append_right_inj "_").mp hopens
      simp [hcamel] at hafter

end Plain

/-- With plain words only, a proposal complies only if the name did or its first letter has a
capital. -/
theorem firstLetterHasCapital_of_isCompliant_propose {openers : List String} {name : String}
    (hword : ∃ word ∈ openers, word ≠ "") (hplain : ∀ word ∈ openers, isPlainWord word = true)
    (hname : isCompliant openers name = false)
    (h : isCompliant openers (propose openers name) = true) :
    firstLetterHasCapital name = true := by
  obtain ⟨opener, hopener, hmem, hne⟩ := exists_opener hword
  rcases propose_cases hopener hname with ⟨hupper, -⟩ | ⟨mark, hmark, hcamel⟩
  · exact firstLetterHasCapital_of_isUpperSnake hupper
  · by_contra hfirst
    rw [Bool.not_eq_true, ← startsUppercase_capitalize_stem] at hfirst
    obtain ⟨word, hwordmem, hopens⟩ := isCompliant_iff.mp h
    rw [hcamel, opensWith_plain (hplain word hwordmem) (hplain opener hmem) hfirst
      (fun c => not_isLower_of_head_capitalize) hmark hne] at hopens
    cases hopens

def ProposalStands (openers : List String) (name : String) : Prop :=
  isCompliant openers (propose openers name) = true ∧
    propose openers (propose openers name) = propose openers name

lemma proposalStands_iff {openers : List String} {name : String} :
    ProposalStands openers name ↔ isCompliant openers (propose openers name) = true :=
  ⟨fun h => h.1, fun h => ⟨h, propose_of_isCompliant h⟩⟩

end Name

namespace BooleanNaming
open Name

lemma report?_eq_none_iff {o : Options} {holder : Holder} {ident : Ident} :
    report? o holder ident = none ↔ isCompliant o.openers ident.name = true := by
  rw [report?, Option.map_eq_none_iff, decision_proposal?_eq_none_iff]

lemma suggested_of_report? {o : Options} {holder : Holder} {ident : Ident} {d : Diagnostic}
    (h : report? o holder ident = some d) :
    isCompliant o.openers ident.name = false ∧
      d.data.get? "suggested" = some (propose o.openers ident.name) := by
  obtain ⟨proposal, hproposal, rfl⟩ := Option.map_eq_some_iff.mp h
  rw [decision] at hproposal
  split at hproposal
  · cases hproposal
  · rename_i hname
    obtain rfl := Option.some.inj hproposal
    exact ⟨Bool.eq_false_iff.mpr hname, rfl⟩

lemma Options.exists_openers (o : Options) : ∃ word ∈ o.openers, word ≠ "" := by
  unfold Options.openers
  split
  · exact ⟨"is", by simp, by decide⟩
  · rename_i hsome
    obtain ⟨word, hword⟩ := List.exists_mem_of_ne_nil _ hsome
    exact ⟨word, hword, by simpa using (List.mem_filter.mp hword).2⟩

lemma Options.isPlainWord_openers {o : Options}
    (h : ∀ word ∈ o.allowedPrefixes, isPlainWord word = true) :
    ∀ word ∈ o.openers, isPlainWord word = true := by
  unfold Options.openers
  split
  · simp only [List.mem_singleton, forall_eq]
    decide
  · exact fun word hword => h word (List.mem_of_mem_filter hword)

/-- A suggestion is accepted by the rule if the first cased letter of the name has a capital, and
with words of basic small letters only then. -/
theorem suggestion_accepted_iff_firstLetterHasCapital (openers : List String) (name : String) :
    ((∃ word ∈ openers, word ≠ "") →
      (isCompliant openers name = true ∨ firstLetterHasCapital name = true →
        ProposalStands openers name) ∧
      ((∀ word ∈ openers, isPlainWord word = true) → ProposalStands openers name →
        isCompliant openers name = true ∨ firstLetterHasCapital name = true)) ∧
    ∀ (o : Options) (holder : Holder) (span : Span) (d : Diagnostic),
      o.allowedPrefixes = openers → report? o holder ⟨name, span⟩ = some d →
      ∃ suggested, d.data.get? "suggested" = some suggested ∧
        (firstLetterHasCapital name = true →
          ∀ other span, report? o other ⟨suggested, span⟩ = none) ∧
        ((∀ word ∈ openers, isPlainWord word = true) →
          ∀ other span, report? o other ⟨suggested, span⟩ = none →
            firstLetterHasCapital name = true) := by
  constructor
  · intro hword
    refine ⟨fun h => proposalStands_iff.mpr ?_, fun hplain hstands => ?_⟩
    · rcases h with hname | hfirst
      · rw [propose_of_isCompliant hname, hname]
      · exact isCompliant_propose hword hfirst
    · cases hname : isCompliant openers name with
      | true => exact Or.inl rfl
      | false =>
        exact Or.inr (firstLetterHasCapital_of_isCompliant_propose hword hplain hname hstands.1)
  · rintro o holder span d rfl h
    obtain ⟨hname, hsuggested⟩ := suggested_of_report? h
    refine ⟨_, hsuggested, fun hfirst other span => ?_, fun hplain other span hnone => ?_⟩
    · exact report?_eq_none_iff.mpr (isCompliant_propose o.exists_openers hfirst)
    · have haccepted := report?_eq_none_iff.mp hnone
      exact firstLetterHasCapital_of_isCompliant_propose o.exists_openers
        (Options.isPlainWord_openers hplain) hname haccepted

theorem suggestion_accepted_iff_firstLetterHasCapital_ordinal :
    ∃ d, report? {} .var ⟨"ªb", ⟨6, 9⟩⟩ = some d ∧ d.data.get? "suggested" = some "isªb" ∧
      ∀ other span, report? {} other ⟨"isªb", span⟩ ≠ none := by
  obtain ⟨d, hd⟩ : ∃ d, report? {} .var ⟨"ªb", ⟨6, 9⟩⟩ = some d :=
    Option.isSome_iff_exists.mp (by decide)
  have hsame : d.data.get? "suggested" = some "isªb" := by
    rw [(suggested_of_report? hd).2]
    decide
  obtain ⟨suggested, hsuggested, -, hconverse⟩ :=
    (suggestion_accepted_iff_firstLetterHasCapital _ _).2 {} .var _ d rfl hd
  obtain rfl := Option.some.inj (hsame.symm.trans hsuggested)
  have hplain : ∀ word ∈ ({} : Options).allowedPrefixes, isPlainWord word = true := by decide
  have hfirst : firstLetterHasCapital "ªb" = false := by decide
  refine ⟨d, hd, hsame, fun other span hnone => ?_⟩
  rw [hconverse hplain other span hnone] at hfirst
  cases hfirst

end BooleanNaming

end JsxLint
