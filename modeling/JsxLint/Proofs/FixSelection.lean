import JsxLint.Proofs.Replacement
import Mathlib.Data.List.Nodup

/-! Which fixes are made when some of them overlap or do not fit the text. The fixes are put in
source order, and each is made unless it does not fit or begins before the end of one that is made.
The choice is a marking of the ordered fixes, so fixes that are given twice are told apart by their
position. Making the chosen ones in one pass is the same as making them one at a time, from the
last to the first. -/
namespace JsxLint.Fix
open Text

/-- The second list holds the fixes of the first one in source order. Fixes with the same span
keep their order. -/
structure InSourceOrder (fixes sorted : List Fix) : Prop where
  perm : sorted.Perm fixes
  ordered : sorted.Pairwise fun a b => a.span.le b.span = true
  stable : ∀ span, sorted.filter (·.span = span) = fixes.filter (·.span = span)

def made (marked : List (Fix × Bool)) : List Fix :=
  (marked.filter Prod.snd).map Prod.fst

/-- The marked fixes are a greedy choice: they fit the text, come one after the other, and whatever
is not marked does not fit or begins before the end of a marked fix in front of it. -/
structure Greedy (cs : List Char) (marked : List (Fix × Bool)) : Prop where
  fits : ∀ fix ∈ made marked, fix.span.Fits cs
  apart : (made marked).Pairwise fun a b => a.span.stop ≤ b.span.start
  refused : ∀ before fix after, marked = before ++ (fix, false) :: after →
    ¬ fix.span.Fits cs ∨ ∃ earlier ∈ made before, fix.span.start < earlier.span.stop

/-- The text with one fix made. A fix that does not fit leaves it as it is. -/
def replaceIn (fix : Fix) (text : String) : String :=
  match splitAt? fix.span.start text.toList, splitAt? fix.span.stop text.toList with
  | some (before, _), some (_, after) =>
    String.ofList (before ++ fix.replacement.toList ++ after)
  | _, _ => text

theorem inSourceOrder_mergeSort (fixes : List Fix) :
    InSourceOrder fixes (fixes.mergeSort fun a b => a.span.le b.span) := by
  have htrans : ∀ a b c : Fix, a.span.le b.span = true → b.span.le c.span = true →
      a.span.le c.span = true := fun _ _ _ => Span.le_trans
  have htotal : ∀ a b : Fix, (a.span.le b.span || b.span.le a.span) = true :=
    fun a b => a.span.le_total b.span
  have hperm := List.mergeSort_perm fixes fun a b => a.span.le b.span
  refine ⟨hperm, List.pairwise_mergeSort htrans htotal fixes, ?_⟩
  intro span
  have hequal : (fixes.filter (·.span = span)).Pairwise fun a b => a.span.le b.span = true := by
    apply List.pairwise_filter.mpr
    apply List.pairwise_of_forall
    intro a b ha hb
    have hab : a.span = b.span := by simp_all
    simpa [hab] using htotal b b
  have hsub := (List.sublist_mergeSort htrans htotal hequal List.filter_sublist).filter
    (·.span = span)
  rw [List.filter_filter] at hsub
  simp only [Bool.and_self] at hsub
  exact (hsub.eq_of_length (hperm.filter _).length_eq.symm).symm

def mark (cs : List Char) (cursor : Nat) : List Fix → List (Fix × Bool)
  | [] => []
  | fix :: fixes =>
    if fix.span.Fits cs ∧ cursor ≤ fix.span.start then (fix, true) :: mark cs fix.span.stop fixes
    else (fix, false) :: mark cs cursor fixes

lemma map_fst_mark (cs : List Char) (cursor : Nat) (fixes : List Fix) :
    (mark cs cursor fixes).map Prod.fst = fixes := by
  fun_induction mark cs cursor fixes with
  | case1 => rfl
  | case2 cursor fix fixes h ih => rw [List.map_cons, ih]
  | case3 cursor fix fixes h ih => rw [List.map_cons, ih]

@[simp] lemma made_nil : made [] = [] := rfl

@[simp] lemma made_cons_true (fix : Fix) (marked : List (Fix × Bool)) :
    made ((fix, true) :: marked) = fix :: made marked := rfl

@[simp] lemma made_cons_false (fix : Fix) (marked : List (Fix × Bool)) :
    made ((fix, false) :: marked) = made marked := rfl

lemma fits_of_mem_made_mark {cs : List Char} {cursor : Nat} {fixes : List Fix} {fix : Fix}
    (h : fix ∈ made (mark cs cursor fixes)) : fix.span.Fits cs ∧ cursor ≤ fix.span.start := by
  fun_induction mark cs cursor fixes with
  | case1 => simp at h
  | case2 cursor first fixes hfirst ih =>
    rcases List.mem_cons.mp h with rfl | hmem
    · exact hfirst
    · have hordered := hfirst.1.1
      have hlater := ih hmem
      exact ⟨hlater.1, by omega⟩
  | case3 cursor first fixes hfirst ih => exact ih h

lemma pairwise_made_mark (cs : List Char) (cursor : Nat) (fixes : List Fix) :
    (made (mark cs cursor fixes)).Pairwise fun a b => a.span.stop ≤ b.span.start := by
  fun_induction mark cs cursor fixes with
  | case1 => simp
  | case2 cursor first fixes hfirst ih =>
    exact List.pairwise_cons.mpr ⟨fun fix hfix => (fits_of_mem_made_mark hfix).2, ih⟩
  | case3 cursor first fixes hfirst ih => exact ih

/-- A fix without a mark does not fit, begins before the cursor or before the end of a marked fix
in front of it. -/
lemma refused_of_mark {cs : List Char} {cursor : Nat} {fixes : List Fix}
    {before after : List (Fix × Bool)} {fix : Fix}
    (h : mark cs cursor fixes = before ++ (fix, false) :: after) :
    ¬ fix.span.Fits cs ∨ fix.span.start < cursor ∨
      ∃ earlier ∈ made before, fix.span.start < earlier.span.stop := by
  fun_induction mark cs cursor fixes generalizing before with
  | case1 => simp at h
  | case2 cursor first fixes hfirst ih =>
    rcases before with _ | ⟨marked, before⟩
    · simp at h
    · obtain ⟨rfl, htail⟩ := List.cons.inj h
      rcases ih htail with hfits | hcursor | ⟨earlier, hmem, hearlier⟩
      · exact Or.inl hfits
      · exact Or.inr (Or.inr ⟨first, by simp, hcursor⟩)
      · exact Or.inr (Or.inr ⟨earlier, by simp [hmem], hearlier⟩)
  | case3 cursor first fixes hfirst ih =>
    rcases before with _ | ⟨marked, before⟩
    · obtain ⟨hsame, -⟩ := List.cons.inj h
      cases hsame
      by_cases hfits : fix.span.Fits cs
      · have hcursor : ¬ cursor ≤ fix.span.start := fun hle => hfirst ⟨hfits, hle⟩
        exact Or.inr (Or.inl (by omega))
      · exact Or.inl hfits
    · obtain ⟨rfl, htail⟩ := List.cons.inj h
      rw [made_cons_false]
      exact ih htail

theorem greedy_mark (cs : List Char) (fixes : List Fix) : Greedy cs (mark cs 0 fixes) where
  fits _ h := (fits_of_mem_made_mark h).1
  apart := pairwise_made_mark cs 0 fixes
  refused before fix after h := by
    rcases refused_of_mark h with hfits | hcursor | hearlier
    · exact Or.inl hfits
    · omega
    · exact Or.inr hearlier

/-- A fix that does not fit or begins before the cursor is passed over. -/
lemma applySorted_skip {front rest : List Char} {fix : Fix}
    (h : ¬ (fix.span.Fits (front ++ rest) ∧ byteLength front ≤ fix.span.start))
    (fixes : List Fix) :
    applySorted (byteLength front) rest (fix :: fixes) =
      applySorted (byteLength front) rest fixes := by
  rw [applySorted]
  split
  · rfl
  · rename_i hplace
    split
    · rfl
    · rename_i kept tail hkept
      split
      · rfl
      · rename_i old after hold
        obtain ⟨rfl, hstart⟩ := splitAt?_eq_some_iff.mp hkept
        obtain ⟨rfl, hstop⟩ := splitAt?_eq_some_iff.mp hold
        refine absurd ⟨⟨by omega, ⟨front ++ kept, old ++ after, by simp, ?_⟩,
          ⟨front ++ kept ++ old, after, by simp, ?_⟩⟩, by omega⟩ h
        · rw [byteLength_append]
          omega
        · rw [byteLength_append, byteLength_append]
          omega

/-- One pass over the fixes makes exactly those that it marks. -/
theorem applySorted_made_mark (fixes : List Fix) (front rest : List Char) :
    applySorted (byteLength front) rest fixes =
      applySorted (byteLength front) rest
        (made (mark (front ++ rest) (byteLength front) fixes)) := by
  induction fixes generalizing front rest with
  | nil => rfl
  | cons fix fixes ih =>
    by_cases h : fix.span.Fits (front ++ rest) ∧ byteLength front ≤ fix.span.start
    · obtain ⟨kept, old, after, rfl, hstart, hstop, happly⟩ := applySorted_cons h.1 h.2
      have hfront : byteLength (front ++ kept ++ old) = fix.span.stop := by
        simp only [byteLength_append]
        omega
      have hsame : front ++ kept ++ old ++ after = front ++ (kept ++ (old ++ after)) := by simp
      have hrest := ih (front ++ kept ++ old) after
      rw [hfront, hsame] at hrest
      rw [mark, if_pos h, made_cons_true, happly, happly, hrest]
    · rw [mark, if_neg h, made_cons_false, applySorted_skip h, ih]

lemma replaceIn_ofList {fix : Fix} {before old after : List Char}
    (hstart : fix.span.start = byteLength before)
    (hstop : fix.span.stop = byteLength before + byteLength old) :
    fix.replaceIn (String.ofList (before ++ (old ++ after))) =
      String.ofList (before ++ fix.replacement.toList ++ after) := by
  have hbefore : splitAt? fix.span.start (before ++ (old ++ after)) = some (before, old ++ after) :=
    splitAt?_eq_some_iff.mpr ⟨rfl, hstart.symm⟩
  have hafter : splitAt? fix.span.stop (before ++ (old ++ after)) = some (before ++ old, after) :=
    splitAt?_eq_some_iff.mpr ⟨by simp, by rw [byteLength_append, hstop]⟩
  rw [replaceIn, String.toList_ofList, hbefore, hafter]

/-- Fixes that come one after the other may as well be made one at a time, the last one first:
what is in front of a fix stays where it is. -/
theorem foldr_replaceIn (fixes : List Fix) (front rest : List Char)
    (hfits : ∀ fix ∈ fixes, fix.span.Fits (front ++ rest))
    (hafter : ∀ fix ∈ fixes, byteLength front ≤ fix.span.start)
    (hordered : fixes.Pairwise fun a b => a.span.stop ≤ b.span.start) :
    fixes.foldr replaceIn (String.ofList (front ++ rest)) =
      String.ofList (front ++ applySorted (byteLength front) rest fixes) := by
  induction fixes generalizing front rest with
  | nil => rfl
  | cons fix fixes ih =>
    obtain ⟨hlater, hordered⟩ := List.pairwise_cons.mp hordered
    obtain ⟨kept, old, after, rfl, hstart, hstop, happly⟩ :=
      applySorted_cons (hfits fix List.mem_cons_self) (hafter fix List.mem_cons_self)
    have hfront : byteLength (front ++ kept ++ old) = fix.span.stop := by
      simp only [byteLength_append]
      omega
    have hsame : front ++ kept ++ old ++ after = front ++ (kept ++ (old ++ after)) := by simp
    have hrest := ih (front ++ kept ++ old) after
      (fun f hf => hsame ▸ hfits f (List.mem_cons_of_mem fix hf))
      (fun f hf => hfront ▸ hlater f hf) hordered
    rw [hsame, hfront] at hrest
    have hreplace := @replaceIn_ofList fix (front ++ kept) old
      (applySorted fix.span.stop after fixes) (by rw [byteLength_append, hstart])
      (by rw [byteLength_append, ← hstart, hstop])
    rw [List.foldr_cons, hrest, happly]
    simpa using hreplace

/-- Making fixes is replacing, one at a time and from the last to the first, a greedy choice of the
fixes in source order. -/
theorem apply_eq_foldr_greedy (source : String) (fixes : List Fix) :
    ∃ marked : List (Fix × Bool), InSourceOrder fixes (marked.map Prod.fst) ∧
      Greedy source.toList marked ∧ apply source fixes = (made marked).foldr replaceIn source ∧
      Replaces ((made marked).map toReplacement) source (apply source fixes) := by
  have hsorted := inSourceOrder_mergeSort fixes
  rw [apply]
  generalize (fixes.mergeSort fun a b => a.span.le b.span) = sorted at hsorted
  have hgreedy := greedy_mark source.toList sorted
  have hpass : applySorted 0 source.toList sorted =
      applySorted 0 source.toList (made (mark source.toList 0 sorted)) :=
    applySorted_made_mark sorted [] source.toList
  have hfold := foldr_replaceIn _ [] source.toList hgreedy.fits (fun _ _ => Nat.zero_le _)
    hgreedy.apart
  obtain ⟨parts, hold, hnew, hreplacements⟩ := exists_parts_applySorted _ [] source.toList
    hgreedy.fits (fun _ _ => Nat.zero_le _) hgreedy.apart
  rw [List.nil_append, String.ofList_toList] at hfold
  refine ⟨mark source.toList 0 sorted, ?_, hgreedy, ?_, parts, hold, ?_, ?_⟩
  · rw [map_fst_mark]
    exact hsorted
  · rw [hpass, hfold]
    rfl
  · rw [String.toList_ofList, hpass]
    exact hnew
  · rw [← hreplacements]
    rfl

/-- The text with the fixes made does not depend on the order in which the fixes are given, as long
as no two of them have the same span. -/
theorem apply_eq_of_perm (source : String) {fixes fixes' : List Fix} (hperm : fixes.Perm fixes')
    (hdistinct : (fixes.map (·.span)).Nodup) : apply source fixes = apply source fixes' := by
  have hsorted := inSourceOrder_mergeSort fixes
  have hsorted' := inSourceOrder_mergeSort fixes'
  have hsame : (fixes.mergeSort fun a b => a.span.le b.span) =
      fixes'.mergeSort fun a b => a.span.le b.span := by
    refine List.Perm.eq_of_pairwise ?_ hsorted.ordered hsorted'.ordered
      (hsorted.perm.trans (hperm.trans hsorted'.perm.symm))
    intro a b ha hb hab hba
    exact List.inj_on_of_nodup_map hdistinct (hsorted.perm.mem_iff.mp ha)
      (hperm.mem_iff.mpr (hsorted'.perm.mem_iff.mp hb)) (Span.le_antisymm hab hba)
  rw [apply, hsame, apply]

/-- Two fixes that overlap, a reversed one and one that reaches outside the text. -/
theorem apply_eq_of_perm_overlapping :
    let fixes : List Fix := [⟨⟨0, 3⟩, "x", none⟩, ⟨⟨1, 6⟩, "y", none⟩, ⟨⟨3, 1⟩, "z", none⟩,
      ⟨⟨6, 9⟩, "w", none⟩]
    apply "aé日" fixes = "x日" ∧ apply "aé日" fixes.reverse = "x日" := by
  intro fixes
  have hgiven : apply "aé日" fixes = "x日" := by
    rw [apply, List.mergeSort_of_pairwise (by decide)]
    decide
  refine ⟨hgiven, ?_⟩
  rw [← hgiven]
  exact (apply_eq_of_perm "aé日" fixes.reverse_perm.symm (by decide)).symm

end JsxLint.Fix
