import JsxLint.Diagnostic.Fix
import Mathlib.Data.List.Basic
import Mathlib.Tactic.Common

/-! Fixes that do not get in each other's way are all made. A text is cut into parts that are kept
and parts that are replaced; making fixes at disjoint places of a text comes down to such a cut,
with one replaced part for each fix and everything else kept in its order. Nothing is said here of
fixes that overlap or do not fit the text. -/
namespace JsxLint

namespace Text

/-- A character begins at byte `n` of the text, or the text ends there. -/
def IsBoundary (cs : List Char) (n : Nat) : Prop :=
  ∃ before after, cs = before ++ after ∧ byteLength before = n

instance (cs : List Char) (n : Nat) : Decidable (IsBoundary cs n) :=
  decidable_of_iff ((splitAt? n cs).isSome = true) (by
    simp only [Option.isSome_iff_exists, Prod.exists, splitAt?_eq_some_iff, IsBoundary])

lemma eq_nil_of_byteLength_eq_zero {cs : List Char} (h : byteLength cs = 0) : cs = [] := by
  cases cs with
  | nil => rfl
  | cons c cs =>
    have hpos := c.utf8Size_pos
    rw [byteLength] at h
    omega

/-- Of two cuts of a text, the one further on cuts what the other leaves. -/
lemma exists_between {front rest before after : List Char} (h : front ++ rest = before ++ after)
    (hle : byteLength front ≤ byteLength before) :
    ∃ middle, before = front ++ middle ∧ rest = middle ++ after := by
  rcases List.append_eq_append_iff.mp h with hfurther | ⟨back, rfl, rfl⟩
  · exact hfurther
  · rw [byteLength_append] at hle
    have hnil : back = [] := eq_nil_of_byteLength_eq_zero (by omega)
    exact ⟨[], by simp [hnil], by simp [hnil]⟩

inductive Part
  | kept (text : List Char)
  | replaced (old new : List Char)

namespace Part

def old : Part → List Char
  | kept text => text
  | replaced old _ => old

def new : Part → List Char
  | kept text => text
  | replaced _ new => new

/-- Where the replaced ones of the parts stand in a text, the first part at byte `start`, and what
each is replaced by. -/
def replacements : (start : Nat) → List Part → List (Span × List Char)
  | _, [] => []
  | start, kept text :: parts => replacements (start + byteLength text) parts
  | start, replaced old new :: parts =>
    (⟨start, start + byteLength old⟩, new) :: replacements (start + byteLength old) parts

end Part

/-- The second text is the first one with all the replacements made, each once, and every other
byte kept in its order. -/
def Replaces (replacements : List (Span × List Char)) (old new : String) : Prop :=
  ∃ parts : List Part, old.toList = parts.flatMap Part.old ∧ new.toList = parts.flatMap Part.new ∧
    (Part.replacements 0 parts).Perm replacements

end Text

open Text

namespace Span

def Fits (cs : List Char) (span : Span) : Prop :=
  span.start ≤ span.stop ∧ IsBoundary cs span.start ∧ IsBoundary cs span.stop

def Disjoint (a b : Span) : Prop :=
  a.stop ≤ b.start ∨ b.stop ≤ a.start

instance (cs : List Char) (span : Span) : Decidable (span.Fits cs) :=
  inferInstanceAs (Decidable (_ ∧ _))

instance (a b : Span) : Decidable (a.Disjoint b) :=
  inferInstanceAs (Decidable (_ ∨ _))

lemma Disjoint.symm {a b : Span} (h : a.Disjoint b) : b.Disjoint a :=
  Or.symm h

/-- Disjoint spans in source order come one after the other. -/
lemma stop_le_start_of_le {a b : Span} (hb : b.start ≤ b.stop) (hle : a.le b = true)
    (hdisjoint : a.Disjoint b) : a.stop ≤ b.start := by
  rw [le, decide_eq_true_eq] at hle
  rcases hdisjoint with hbefore | hafter
  · exact hbefore
  · omega

end Span

namespace Fix

def toReplacement (fix : Fix) : Span × List Char :=
  (fix.span, fix.replacement.toList)

/-- One fix at or after the cursor is made, and the rest of the text is left to the others. -/
lemma applySorted_cons {front rest : List Char} {fix : Fix}
    (hfits : fix.span.Fits (front ++ rest)) (hafter : byteLength front ≤ fix.span.start) :
    ∃ kept old after, rest = kept ++ (old ++ after) ∧
      fix.span.start = byteLength front + byteLength kept ∧
      fix.span.stop = fix.span.start + byteLength old ∧
      ∀ fixes, applySorted (byteLength front) rest (fix :: fixes) =
        kept ++ fix.replacement.toList ++ applySorted fix.span.stop after fixes := by
  obtain ⟨hordered, ⟨upto, tail, hstart, hupto⟩, ⟨whole, after, hstop, hwhole⟩⟩ := hfits
  obtain ⟨kept, rfl, rfl⟩ := exists_between hstart (by omega)
  obtain ⟨old, rfl, rfl⟩ := exists_between (hstart.symm.trans hstop) (by omega)
  simp only [byteLength_append] at hupto hwhole
  refine ⟨kept, old, after, rfl, by omega, by omega, fun fixes => ?_⟩
  have hkept : splitAt? (fix.span.start - byteLength front) (kept ++ (old ++ after)) =
      some (kept, old ++ after) :=
    splitAt?_eq_some_iff.mpr ⟨rfl, by omega⟩
  have hold : splitAt? (fix.span.stop - fix.span.start) (old ++ after) = some (old, after) :=
    splitAt?_eq_some_iff.mpr ⟨rfl, by omega⟩
  rw [applySorted, if_neg (by omega), hkept]
  simp only [hold]

/-- Fixes that come one after the other in the text are all made. -/
theorem exists_parts_applySorted (fixes : List Fix) (front rest : List Char)
    (hfits : ∀ fix ∈ fixes, fix.span.Fits (front ++ rest))
    (hafter : ∀ fix ∈ fixes, byteLength front ≤ fix.span.start)
    (hordered : fixes.Pairwise fun a b => a.span.stop ≤ b.span.start) :
    ∃ parts : List Part, rest = parts.flatMap Part.old ∧
      applySorted (byteLength front) rest fixes = parts.flatMap Part.new ∧
      Part.replacements (byteLength front) parts = fixes.map toReplacement := by
  induction fixes generalizing front rest with
  | nil => exact ⟨[.kept rest], by simp [Part.old], by simp [applySorted, Part.new], rfl⟩
  | cons fix fixes ih =>
    obtain ⟨hlater, hordered⟩ := List.pairwise_cons.mp hordered
    obtain ⟨kept, old, after, rfl, hstart, hstop, happly⟩ :=
      applySorted_cons (hfits fix List.mem_cons_self) (hafter fix List.mem_cons_self)
    have hfront : byteLength (front ++ kept ++ old) = fix.span.stop := by
      simp only [byteLength_append]
      omega
    have hsame : front ++ kept ++ old ++ after = front ++ (kept ++ (old ++ after)) := by simp
    obtain ⟨parts, hold, hnew, hreplacements⟩ := ih (front ++ kept ++ old) after
      (fun f hf => hsame ▸ hfits f (List.mem_cons_of_mem fix hf))
      (fun f hf => hfront ▸ hlater f hf) hordered
    rw [hfront] at hnew hreplacements
    refine ⟨.kept kept :: .replaced old fix.replacement.toList :: parts, ?_, ?_, ?_⟩
    · simp only [List.flatMap_cons, Part.old, ← hold]
    · simp only [happly, hnew, List.flatMap_cons, Part.new, List.append_assoc]
    · simp only [Part.replacements, ← hstart, ← hstop, hreplacements, List.map_cons, toReplacement]

/-- Fixes at disjoint places of a text are all made, whatever their order, and nothing else is
changed. -/
theorem replaces_apply {source : String} {fixes : List Fix}
    (hfits : ∀ fix ∈ fixes, fix.span.Fits source.toList)
    (hdisjoint : fixes.Pairwise fun a b => a.span.Disjoint b.span) :
    Replaces (fixes.map toReplacement) source (apply source fixes) := by
  have hperm : (fixes.mergeSort fun a b => a.span.le b.span).Perm fixes :=
    List.mergeSort_perm fixes _
  have hsorted := @List.pairwise_mergeSort Fix (fun a b => a.span.le b.span)
    (fun _ _ _ => Span.le_trans) (fun a b => a.span.le_total b.span) fixes
  have hordered : (fixes.mergeSort fun a b => a.span.le b.span).Pairwise
      fun a b => a.span.stop ≤ b.span.start := by
    have hboth := hsorted.and ((hperm.pairwise_iff Span.Disjoint.symm).mpr hdisjoint)
    refine hboth.imp_of_mem fun _ hb hab => ?_
    exact Span.stop_le_start_of_le (hfits _ (hperm.mem_iff.mp hb)).1 hab.1 hab.2
  obtain ⟨parts, hold, hnew, hreplacements⟩ := exists_parts_applySorted _ [] source.toList
    (fun fix hfix => hfits fix (hperm.mem_iff.mp hfix)) (fun _ _ => Nat.zero_le _) hordered
  refine ⟨parts, hold, ?_, ?_⟩
  · rw [apply, String.toList_ofList]
    exact hnew
  · exact hreplacements ▸ hperm.map toReplacement

end Fix

end JsxLint
