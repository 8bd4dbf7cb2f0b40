import JsxLint.Text.LetterCase
import Mathlib.Data.List.Basic
import Mathlib.Tactic.Common

/-! What the case tables say about single characters. A capital is written as itself, only the
underscore is written as an underscore, and no character is written with a basic small letter.
The tables are compared run by run, not character by character. -/
namespace JsxLint.Text

namespace Run

/-- The two runs lie apart: one ends before the other begins, or both go in steps of two and one
has the even code points, the other the odd ones. -/
def isApart (a b : Run) : Bool :=
  Nat.blt a.last b.first || Nat.blt b.last a.first ||
    ((a.stride == 2 || a.first == a.last) && (b.stride == 2 || b.first == b.last) &&
      (a.first + b.first) % 2 == 1)

lemma parity {run : Run} {code : Nat} (hstride : run.stride = 2 ∨ run.first = run.last)
    (h : run.contains code = true) : code % 2 = run.first % 2 := by
  obtain ⟨hfirst, hlast, hstep⟩ := (run.contains_iff code).mp h
  rcases hstride with hstride | hsingle
  · rw [hstride] at hstep
    omega
  · omega

lemma not_contains_of_isApart {a b : Run} {code : Nat} (h : a.isApart b = true)
    (ha : a.contains code = true) : ¬ b.contains code = true := by
  intro hb
  obtain ⟨hafirst, halast, -⟩ := (a.contains_iff code).mp ha
  obtain ⟨hbfirst, hblast, -⟩ := (b.contains_iff code).mp hb
  simp only [isApart, Bool.or_eq_true, Bool.and_eq_true, Nat.blt_eq, beq_iff_eq] at h
  rcases h with (hbefore | hafter) | ⟨⟨hastep, hbstep⟩, hodd⟩
  · omega
  · omega
  · have hacode := parity hastep ha
    have hbcode := parity hbstep hb
    omega

end Run

/-- How a character is written in capitals: by an expansion, by a shift, or as itself. -/
lemma capitals_cases (c : Char) :
    (∃ codes, (c.toNat, codes) ∈ capitalExpansions ∧ capitals c = codes.map Char.ofNat) ∨
    (∃ shift ∈ capitalShifts, shift.run.contains c.toNat = true ∧
      capitals c = [Char.ofNat (c.toNat + shift.offset).toNat]) ∨
    capitals c = [c] := by
  unfold capitals
  split
  · rename_i code codes hfind
    have hcode := List.find?_some hfind
    rw [beq_iff_eq] at hcode
    exact Or.inl ⟨codes, hcode ▸ List.mem_of_find?_eq_some hfind, rfl⟩
  · split
    · rename_i shift hfind
      have hcontains : shift.run.contains c.toNat = true :=
        List.find?_some (p := fun shift : Shift => shift.run.contains c.toNat) hfind
      exact Or.inr (Or.inl ⟨shift, List.mem_of_find?_eq_some hfind, hcontains, rfl⟩)
    · exact Or.inr (Or.inr rfl)

lemma uppercaseRuns_isApart :
    uppercaseRuns.all (fun run => capitalShifts.all fun shift => run.isApart shift.run) = true := by
  decide +kernel

lemma uppercaseRuns_isApart_expansions :
    uppercaseRuns.all (fun run => capitalExpansions.all fun e => run.isApart ⟨e.1, e.1, 1⟩) =
      true := by
  decide +kernel

/-- A capital is written as itself. -/
theorem capitals_of_isUppercase {c : Char} (h : isUppercase c = true) : capitals c = [c] := by
  obtain ⟨run, hrun, hcontains⟩ := List.any_eq_true.mp h
  rcases capitals_cases c with ⟨codes, hmem, -⟩ | ⟨shift, hmem, hshift, -⟩ | hself
  · have hapart := List.all_eq_true.mp
      (List.all_eq_true.mp uppercaseRuns_isApart_expansions run hrun) _ hmem
    exact absurd (by simp [Run.contains]) (Run.not_contains_of_isApart hapart hcontains)
  · have hapart := List.all_eq_true.mp
      (List.all_eq_true.mp uppercaseRuns_isApart run hrun) shift hmem
    exact absurd hshift (Run.not_contains_of_isApart hapart hcontains)
  · exact hself

lemma capitals_ne_nil (c : Char) : capitals c ≠ [] := by
  rcases capitals_cases c with ⟨codes, hmem, heq⟩ | ⟨shift, -, -, heq⟩ | heq
  · have hcodes := List.all_eq_true.mp
      (show capitalExpansions.all (fun e => !e.2.isEmpty) = true by decide) _ hmem
    rw [heq]
    simpa using hcodes
  · simp [heq]
  · simp [heq]

/-- The code points from `low` to `high` are no first capitals of other characters. -/
def leadsNowhere (low high : Nat) : Bool :=
  capitalExpansions.all (fun e => e.2.head?.all fun code => code < low || high < code) &&
    capitalShifts.all fun shift =>
      shift.run.last + shift.offset < low || high < shift.run.first + shift.offset

lemma toNat_ofNat_of_pos {n : Nat} (h : 0 < (Char.ofNat n).toNat) : (Char.ofNat n).toNat = n := by
  by_cases hvalid : n.isValidChar
  · have hself : Char.ofNat n = Char.ofNatAux n hvalid := dif_pos hvalid
    rw [hself]
    rfl
  · have hzero : Char.ofNat n = '\x00' := dif_neg hvalid
    rw [hzero] at h
    exact absurd h (by decide)

lemma eq_of_head_capitals (low high : Nat) {c d : Char} (hpos : 0 < low)
    (h : leadsNowhere low high = true) (hd : (capitals c).head? = some d) (hlow : low ≤ d.toNat)
    (hhigh : d.toNat ≤ high) : c = d := by
  rw [leadsNowhere, Bool.and_eq_true, List.all_eq_true, List.all_eq_true] at h
  rcases capitals_cases c with ⟨codes, hmem, heq⟩ | ⟨shift, hmem, hshift, heq⟩ | heq
  · have hcodes := h.1 _ hmem
    rw [heq, List.head?_map, Option.map_eq_some_iff] at hd
    obtain ⟨code, hcode, rfl⟩ := hd
    have hnat := toNat_ofNat_of_pos (n := code) (by omega)
    simp only [hcode, Option.all_some, Bool.or_eq_true, decide_eq_true_eq] at hcodes
    omega
  · obtain ⟨hfirst, hlast, -⟩ := (shift.run.contains_iff _).mp hshift
    have hrange := h.2 _ hmem
    rw [heq, List.head?_cons, Option.some.injEq] at hd
    subst hd
    have hnat := toNat_ofNat_of_pos (n := (c.toNat + shift.offset).toNat) (by omega)
    simp only [Bool.or_eq_true, decide_eq_true_eq] at hrange
    omega
  · rw [heq, List.head?_cons, Option.some.injEq] at hd
    exact hd

/-- Only the underscore is written with an underscore first. -/
theorem eq_underscore_of_capitals {c : Char} (h : (capitals c).head? = some '_') : c = '_' :=
  eq_of_head_capitals 95 95 (by decide) (by decide) h (by decide) (by decide)

lemma isLower_iff {c : Char} : c.isLower = true ↔ 97 ≤ c.toNat ∧ c.toNat ≤ 122 := by
  change (decide ('a'.val ≤ c.val) && decide (c.val ≤ 'z'.val)) = true ↔ _
  rw [Bool.and_eq_true, decide_eq_true_eq, decide_eq_true_eq, UInt32.le_iff_toNat_le,
    UInt32.le_iff_toNat_le]
  rfl

lemma isUpper_iff {c : Char} : c.isUpper = true ↔ 65 ≤ c.toNat ∧ c.toNat ≤ 90 := by
  change decide ('A'.val ≤ c.val ∧ c.val ≤ 'Z'.val) = true ↔ _
  rw [decide_eq_true_eq, UInt32.le_iff_toNat_le, UInt32.le_iff_toNat_le]
  rfl

lemma isDigit_iff {c : Char} : c.isDigit = true ↔ 48 ≤ c.toNat ∧ c.toNat ≤ 57 := by
  change (decide ('0'.val ≤ c.val) && decide (c.val ≤ '9'.val)) = true ↔ _
  rw [Bool.and_eq_true, decide_eq_true_eq, decide_eq_true_eq, UInt32.le_iff_toNat_le,
    UInt32.le_iff_toNat_le]
  rfl

/-- A fact about a run of characters is checked for one after the other. -/
lemma forall_of_toNat {p : Char → Prop} {first count : Nat}
    (h : ∀ i : Fin count, p (Char.ofNat (first + i))) {c : Char} (hfirst : first ≤ c.toNat)
    (hlast : c.toNat < first + count) : p c := by
  have hp := h ⟨c.toNat - first, by omega⟩
  rwa [show first + (c.toNat - first) = c.toNat by omega, Char.ofNat_toNat] at hp

lemma forall_isLower {p : Char → Prop} (h : ∀ i : Fin 26, p (Char.ofNat (97 + i))) {c : Char}
    (hc : c.isLower = true) : p c := by
  obtain ⟨hlow, hhigh⟩ := isLower_iff.mp hc
  exact forall_of_toNat h hlow (by omega)

lemma isUpper_of_isLower {c : Char} (h : c.isLower = true) :
    (capitals c).head?.any Char.isUpper = true :=
  forall_isLower (p := fun c => (capitals c).head?.any Char.isUpper = true) (by decide) h

lemma isUpper_eq_false {c : Char} (h : c.isLower = true) : c.isUpper = false := by
  by_contra hupper
  obtain ⟨hlow, -⟩ := isLower_iff.mp h
  obtain ⟨-, hhigh⟩ := isUpper_iff.mp (Bool.not_eq_false _ ▸ hupper)
  omega

lemma isUppercase_of_isLower {c : Char} (h : c.isLower = true) : isUppercase c = false := by
  by_contra hupper
  rw [Bool.not_eq_false] at hupper
  have hcapital := isUpper_of_isLower h
  rw [capitals_of_isUppercase hupper, List.head?_cons, Option.any_some, isUpper_eq_false h]
    at hcapital
  cases hcapital

lemma isUppercase_of_isUpper {c : Char} (h : c.isUpper = true) : isUppercase c = true := by
  obtain ⟨hlow, hhigh⟩ := isUpper_iff.mp h
  refine List.any_eq_true.mpr ⟨⟨0x41, 0x5A, 1⟩, List.mem_cons_self, ?_⟩
  exact (Run.contains_iff _ _).mpr ⟨hlow, hhigh, Nat.mod_one _⟩

/-- No digit or other character before the letters is cased. -/
lemma isCased_of_lt {c : Char} (h : c.toNat < 65) : isCased c = false := by
  have hruns : (lowercaseRuns ++ uppercaseRuns).all (fun run => Nat.ble 65 run.first) = true := by
    decide +kernel
  rw [isCased, isLowercase, isUppercase, ← List.any_append, List.any_eq_false]
  intro run hrun hcontains
  have hfirst := Nat.ble_eq.mp (List.all_eq_true.mp hruns run hrun)
  have hcode := (run.contains_iff c.toNat).mp hcontains
  omega

/-- No character is written with a basic small letter first. -/
theorem not_isLower_of_capitals {c d : Char} (h : (capitals c).head? = some d) :
    d.isLower = false := by
  by_contra hlower
  rw [Bool.not_eq_false] at hlower
  obtain ⟨hlow, hhigh⟩ := isLower_iff.mp hlower
  obtain rfl := eq_of_head_capitals 97 122 (by decide) (by decide) h hlow hhigh
  have hupper := isUpper_of_isLower hlower
  rw [h, Option.any_some, isUpper_eq_false hlower] at hupper
  cases hupper

def hasCapital (c : Char) : Bool :=
  (capitals c).head?.any isUppercase

lemma startsUppercase_iff {s : String} :
    startsUppercase s = true ↔ ∃ c cs, s.toList = c :: cs ∧ isUppercase c = true := by
  rw [startsUppercase]
  cases s.toList with
  | nil => simp
  | cons c cs => simp

lemma toList_capitalize {s : String} {c : Char} {cs : List Char} (h : s.toList = c :: cs) :
    (capitalize s).toList = capitals c ++ cs := by
  rw [capitalize, h, String.toList_ofList]

example : (capitalize "ßa", capitalize "ŉ", capitalize "ǆ", capitalize "日") =
    ("SSa", "ʼN", "Ǆ", "日") := by decide

lemma startsUppercase_capitalize {s : String} {c : Char} {cs : List Char}
    (h : s.toList = c :: cs) : startsUppercase (capitalize s) = hasCapital c := by
  rw [startsUppercase, toList_capitalize h, hasCapital, List.head?_append_of_ne_nil _
    (capitals_ne_nil c)]

lemma hasCapital_of_isUpper {c : Char} (h : c.isUpper = true) : hasCapital c = true := by
  have hupper := isUppercase_of_isUpper h
  rw [hasCapital, capitals_of_isUppercase hupper, List.head?_cons, Option.any_some, hupper]

lemma not_isLower_of_head_capitalize {s : String} {c : Char}
    (h : (capitalize s).toList.head? = some c) : c.isLower = false := by
  cases hs : s.toList with
  | nil => simp [capitalize, hs] at h
  | cons d ds =>
    rw [toList_capitalize hs, List.head?_append_of_ne_nil _ (capitals_ne_nil d)] at h
    exact not_isLower_of_capitals h

lemma capitalize_of_startsUppercase {s : String} (h : startsUppercase s = true) :
    capitalize s = s := by
  obtain ⟨c, cs, hs, hc⟩ := startsUppercase_iff.mp h
  rw [← String.toList_inj, toList_capitalize hs, capitals_of_isUppercase hc, hs]
  rfl

lemma startsUppercase_congr {s t : String} (h : s.toList.head? = t.toList.head?) :
    startsUppercase s = startsUppercase t := by
  rw [startsUppercase, startsUppercase, h]

lemma toList_ne_nil {s : String} (h : s ≠ "") : s.toList ≠ [] :=
  fun hnil => h (String.toList_eq_nil_iff.mp hnil)

lemma head?_append {s t : String} (h : s ≠ "") : (s ++ t).toList.head? = s.toList.head? := by
  rw [String.toList_append, List.head?_append_of_ne_nil _ (toList_ne_nil h)]

/-- An ending that begins with a capital does not reach back into what has none. -/
lemma exists_middle {front back rest tail : String}
    (hfront : ∀ c ∈ front.toList, isUppercase c = false) (hback : startsUppercase back = false)
    (htail : startsUppercase tail = true) (h : front ++ back = rest ++ tail) :
    ∃ middle, middle ≠ "" ∧ rest = front ++ middle ∧ back = middle ++ tail := by
  have hne : back ≠ tail := by
    rintro rfl
    rw [htail] at hback
    cases hback
  have hlists := congrArg String.toList h
  rw [String.toList_append, String.toList_append] at hlists
  rcases List.append_eq_append_iff.mp hlists with ⟨more, hrest, hmore⟩ | ⟨more, hmore, hmoretail⟩
  · refine ⟨String.ofList more, ?_, ?_, ?_⟩
    · intro hempty
      have hnil : more = [] := by simpa using congrArg String.toList hempty
      rw [hnil, List.nil_append, String.toList_inj] at hmore
      exact hne hmore
    · rw [← String.toList_inj, hrest, String.toList_append, String.toList_ofList]
    · rw [← String.toList_inj, hmore, String.toList_append, String.toList_ofList]
  · obtain ⟨c, cs, hc, hupper⟩ := startsUppercase_iff.mp htail
    cases more with
    | nil =>
      rw [List.nil_append, String.toList_inj] at hmoretail
      exact absurd hmoretail.symm hne
    | cons d more =>
      rw [hc, List.cons_append] at hmoretail
      obtain ⟨rfl, -⟩ := List.cons.inj hmoretail
      rw [hfront c (by simp [hmore])] at hupper
      cases hupper

lemma capitalize_append {s t : String} (h : s ≠ "") : capitalize (s ++ t) = capitalize s ++ t := by
  cases hs : s.toList with
  | nil => exact absurd hs (toList_ne_nil h)
  | cons c cs =>
    have happend : (s ++ t).toList = c :: (cs ++ t.toList) := by
      rw [String.toList_append, hs, List.cons_append]
    rw [← String.toList_inj, toList_capitalize happend, String.toList_append, toList_capitalize hs,
      List.append_assoc]

lemma capitalize_ne_empty {s : String} (h : s ≠ "") : capitalize s ≠ "" := by
  cases hs : s.toList with
  | nil => exact absurd hs (toList_ne_nil h)
  | cons c cs =>
    intro hempty
    have hlists := congrArg String.toList hempty
    rw [toList_capitalize hs] at hlists
    exact capitals_ne_nil c (List.append_eq_nil_iff.mp hlists).1

/-- What a capitalized name ends with, the name ended with, unless the first letter has several
capitals and the ending begins among them. -/
lemma ending_of_capitalize {name rest tail : String} (h : capitalize name = rest ++ tail)
    (hne : rest ≠ "") : (∃ front, name = front ++ tail ∧ front ≠ "") ∨
    ∃ c, name.toList.head? = some c ∧ ∃ codes, (c.toNat, codes) ∈ capitalExpansions ∧
      (codes.map Char.ofNat).getLast?.any (tail.toList.contains ·) = true := by
  cases hname : name.toList with
  | nil =>
    simp [capitalize, hname, hne] at h
  | cons c cs =>
    have hlists := congrArg String.toList h
    rw [toList_capitalize hname, String.toList_append] at hlists
    have hfront (front : List Char) (hsame : name.toList = c :: front ++ tail.toList) :
        ∃ front, name = front ++ tail ∧ front ≠ "" := by
      refine ⟨String.ofList (c :: front), ?_, ?_⟩
      · rw [← String.toList_inj, hsame, String.toList_append, String.toList_ofList]
      · simp [← String.toList_inj]
    rcases List.append_eq_append_iff.mp hlists with ⟨more, -, hcs⟩ | ⟨more, hcapitals, htail⟩
    · exact Or.inl (hfront more (by rw [hname, hcs, List.cons_append]))
    · cases more with
      | nil => exact Or.inl (hfront [] (by rw [hname, htail]; rfl))
      | cons d more =>
        have hlong : 2 ≤ (capitals c).length := by
          have hpos := List.length_pos_iff.mpr (toList_ne_nil hne)
          rw [hcapitals, List.length_append, List.length_cons]
          omega
        rcases capitals_cases c with ⟨codes, hmem, hcodes⟩ | ⟨shift, -, -, hsingle⟩ | hsingle
        · refine Or.inr ⟨c, rfl, codes, hmem, ?_⟩
          rw [← hcodes, hcapitals, List.getLast?_append_of_ne_nil _ (by simp),
            List.getLast?_eq_some_getLast (by simp), Option.any_some, List.contains_iff_mem, htail]
          exact List.mem_append_left _ (List.getLast_mem _)
        · simp [hsingle] at hlong
        · simp [hsingle] at hlong

end JsxLint.Text
