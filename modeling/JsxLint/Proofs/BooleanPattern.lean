import JsxLint.Proofs.BooleanNames
import JsxLint.Proofs.Replacement
import Mathlib.Computability.RegularExpressions

/-! The names that read as a boolean are those that match a regular expression. The test cuts a name
before its first basic capital and looks up what stands before the cut; the expression tries one
verb after the other. The two agree because no verb has a capital in it. The cut is made at a byte
offset and never falls inside a character, whatever the alphabet of the name. Nothing is said here
about the values that such a name is bound to. -/
namespace JsxLint

namespace Text

lemma utf8ByteSize_ofList (cs : List Char) : (String.ofList cs).utf8ByteSize = byteLength cs := by
  induction cs with
  | nil => rfl
  | cons c cs ih =>
    rw [String.ofList_cons, String.utf8ByteSize_append, String.utf8ByteSize_singleton, ih,
      byteLength]

/-- The boundaries of a text are its valid positions in UTF-8. -/
lemma isBoundary_iff_isValid {s : String} {n : Nat} :
    IsBoundary s.toList n ↔ String.Pos.Raw.IsValid s ⟨n⟩ := by
  rw [String.Pos.Raw.isValid_iff_exists_append]
  constructor
  · rintro ⟨before, after, hs, rfl⟩
    refine ⟨String.ofList before, String.ofList after, ?_, ?_⟩
    · rw [← String.ofList_append, ← hs, String.ofList_toList]
    · rw [String.rawEndPos, utf8ByteSize_ofList]
  · rintro ⟨before, after, rfl, hn⟩
    refine ⟨before.toList, after.toList, String.toList_append, ?_⟩
    rw [← utf8ByteSize_ofList, String.ofList_toList]
    exact (congrArg String.Pos.Raw.byteIdx hn).symm

/-- A character begins at every offset that the search for one gives. -/
lemma isBoundary_of_offset? {p : Char → Bool} {cs : List Char} {n : Nat}
    (h : offset? p cs = some n) : IsBoundary cs n := by
  obtain ⟨before, c, after, hcs, -, -, hlength⟩ := offset?_eq_some_iff.mp h
  exact ⟨before, c :: after, hcs, hlength⟩

def verbatim (s : String) : RegularExpression Char :=
  (s.toList.map .char).prod

/-- The pattern matches a beginning of the text: a search that is anchored at the start only. -/
def MatchesStart (pattern : RegularExpression Char) (s : String) : Prop :=
  ∃ found ∈ pattern.matches', found <+: s.toList

instance (pattern : RegularExpression Char) (s : String) : Decidable (MatchesStart pattern s) :=
  decidable_of_iff (∃ found ∈ s.toList.inits, found ∈ pattern.matches') (by
    simp only [MatchesStart, List.mem_inits, and_comm])

lemma mem_verbatim_iff {s : String} {cs : List Char} :
    cs ∈ (verbatim s).matches' ↔ cs = s.toList := by
  rw [verbatim]
  induction s.toList generalizing cs with
  | nil => exact Language.mem_one cs
  | cons c rest ih =>
    rw [List.map_cons, List.prod_cons, RegularExpression.matches'_mul, Language.mem_mul]
    simp only [ih, exists_eq_left]
    constructor
    · rintro ⟨first, rfl, rfl⟩
      rfl
    · rintro rfl
      exact ⟨[c], rfl, rfl⟩

lemma mem_sum_iff {patterns : List (RegularExpression Char)} {cs : List Char} :
    cs ∈ patterns.sum.matches' ↔ ∃ pattern ∈ patterns, cs ∈ pattern.matches' := by
  induction patterns with
  | nil => simp
  | cons pattern rest ih =>
    rw [List.sum_cons, RegularExpression.matches'_add, Language.mem_add, ih]
    simp

end Text

namespace Name
open Text

def basicCapitals : String := "ABCDEFGHIJKLMNOPQRSTUVWXYZ"

lemma mem_basicCapitals_iff {c : Char} : c ∈ basicCapitals.toList ↔ c.isUpper = true := by
  constructor
  · have hall : basicCapitals.toList.all Char.isUpper = true := by decide
    exact List.all_eq_true.mp hall c
  · intro h
    have hall : ∀ i : Fin 26, Char.ofNat (65 + i) ∈ basicCapitals.toList := by decide
    obtain ⟨hlow, hhigh⟩ := isUpper_iff.mp h
    exact forall_of_toNat (p := (· ∈ basicCapitals.toList)) hall hlow (by omega)

/-- The pattern `(is|has|can|should|will|does|did|was|were|am|are|be)[A-Z]`. -/
def booleanPattern : RegularExpression Char :=
  (["is", "has", "can", "should", "will", "does", "did", "was", "were", "am", "are", "be"].map
    verbatim).sum * (basicCapitals.toList.map .char).sum

lemma mem_booleanPattern_iff {cs : List Char} : cs ∈ booleanPattern.matches' ↔
    ∃ verb ∈ booleanVerbs, ∃ capital ∈ basicCapitals.toList, cs = verb.toList ++ [capital] := by
  rw [booleanPattern, ← booleanVerbs, RegularExpression.matches'_mul, Language.mem_mul]
  simp only [mem_sum_iff, List.mem_map]
  constructor
  · rintro ⟨front, ⟨_, ⟨verb, hverb, rfl⟩, hfront⟩, _, ⟨_, ⟨capital, hcapital, rfl⟩, rfl⟩, rfl⟩
    exact ⟨verb, hverb, capital, hcapital, by rw [mem_verbatim_iff.mp hfront]⟩
  · rintro ⟨verb, hverb, capital, hcapital, rfl⟩
    exact ⟨verb.toList, ⟨_, ⟨verb, hverb, rfl⟩, mem_verbatim_iff.mpr rfl⟩,
      [capital], ⟨_, ⟨capital, hcapital, rfl⟩, rfl⟩, rfl⟩

def OpensWithVerb (name : String) : Prop :=
  ∃ verb ∈ booleanVerbs, ∃ capital ∈ basicCapitals.toList, ∃ rest,
    name = verb ++ String.singleton capital ++ rest

lemma matchesStart_booleanPattern_iff {name : String} :
    MatchesStart booleanPattern name ↔ OpensWithVerb name := by
  constructor
  · rintro ⟨found, hfound, rest, hrest⟩
    obtain ⟨verb, hverb, capital, hcapital, rfl⟩ := mem_booleanPattern_iff.mp hfound
    refine ⟨verb, hverb, capital, hcapital, String.ofList rest, ?_⟩
    rw [← String.toList_inj, ← hrest]
    simp
  · rintro ⟨verb, hverb, capital, hcapital, rest, rfl⟩
    refine ⟨verb.toList ++ [capital], ?_, rest.toList, ?_⟩
    · exact mem_booleanPattern_iff.mpr ⟨verb, hverb, capital, hcapital, rfl⟩
    · simp

lemma isBooleanLike_of_forall {name : String} (h : ∀ c ∈ name.toList, c.isUpper = false) :
    isBooleanLike name = false := by
  apply Option.some.inj
  rw [← readsBoolean?_eq_some, readsBoolean?, offset?_eq_none_iff.mpr h]

/-- A name with a basic capital is judged by what stands before the first one. -/
lemma isBooleanLike_of_split {name : String} {before after : List Char} {capital : Char}
    (hname : name.toList = before ++ capital :: after)
    (hbefore : ∀ c ∈ before, c.isUpper = false) (hcapital : capital.isUpper = true) :
    isBooleanLike name = booleanVerbs.contains (String.ofList before) := by
  have hoffset : offset? Char.isUpper name.toList = some (byteLength before) :=
    offset?_eq_some_iff.mpr ⟨before, capital, after, hname, hbefore, hcapital, rfl⟩
  have hcut : splitAt? (byteLength before) name.toList = some (before, capital :: after) :=
    splitAt?_eq_some_iff.mpr ⟨hname, rfl⟩
  apply Option.some.inj
  rw [← readsBoolean?_eq_some, readsBoolean?, hoffset]
  cases hlength : byteLength before with
  | zero =>
    rw [eq_nil_of_byteLength_eq_zero hlength]
    rfl
  | succ n =>
    rw [hlength] at hcut
    simp only [hcut, Option.map_some]

/-- No verb has a capital in it, so the first capital of a name ends the verb in front of it. -/
lemma isUpper_eq_false_of_mem_verbs {verb : String} (hverb : verb ∈ booleanVerbs) {c : Char}
    (hc : c ∈ verb.toList) : c.isUpper = false := by
  have hplain : ∀ verb ∈ booleanVerbs, isPlainWord verb = true := by decide
  exact isUpper_eq_false (List.all_eq_true.mp (hplain verb hverb) c hc)

lemma isBooleanLike_iff_opensWithVerb {name : String} :
    isBooleanLike name = true ↔ OpensWithVerb name := by
  constructor
  · intro h
    cases hoffset : offset? Char.isUpper name.toList with
    | none =>
      rw [isBooleanLike_of_forall (offset?_eq_none_iff.mp hoffset)] at h
      cases h
    | some n =>
      obtain ⟨before, capital, after, hname, hbefore, hcapital, -⟩ := offset?_eq_some_iff.mp hoffset
      rw [isBooleanLike_of_split hname hbefore hcapital, List.contains_iff_mem] at h
      refine ⟨String.ofList before, h, capital, mem_basicCapitals_iff.mpr hcapital,
        String.ofList after, ?_⟩
      rw [← String.toList_inj, hname]
      simp
  · rintro ⟨verb, hverb, capital, hcapital, rest, rfl⟩
    have hname : (verb ++ String.singleton capital ++ rest).toList =
        verb.toList ++ capital :: rest.toList := by simp
    rw [isBooleanLike_of_split hname (fun c => isUpper_eq_false_of_mem_verbs hverb)
      (mem_basicCapitals_iff.mp hcapital), String.ofList_toList, List.contains_iff_mem]
    exact hverb

/-- A name reads as a boolean if and only if it matches `booleanPattern` at its start. The test
always has an answer, and its cut is at a valid position in UTF-8. -/
theorem isBooleanLike_iff_matchesStart (name : String) :
    (isBooleanLike name = true ↔ MatchesStart booleanPattern name) ∧
    (isBooleanLike name = true ↔ OpensWithVerb name) ∧
    readsBoolean? name = some (isBooleanLike name) ∧
    ∀ n, offset? Char.isUpper name.toList = some n → String.Pos.Raw.IsValid name ⟨n⟩ := by
  refine ⟨?_, isBooleanLike_iff_opensWithVerb, readsBoolean?_eq_some name, fun n hoffset => ?_⟩
  · rw [matchesStart_booleanPattern_iff, isBooleanLike_iff_opensWithVerb]
  · exact isBoundary_iff_isValid.mp (isBoundary_of_offset? hoffset)

/-- Counted in characters, the capital would come at 3, which is inside `日`. -/
theorem isBooleanLike_iff_matchesStart_wideLetter :
    let name := "is日Open"
    offset? Char.isUpper name.toList = some 5 ∧ String.Pos.Raw.IsValid name ⟨5⟩ ∧
      ¬ String.Pos.Raw.IsValid name ⟨3⟩ ∧ readsBoolean? name = some false ∧
      ¬ MatchesStart booleanPattern name ∧
      MatchesStart booleanPattern "wereReady" ∧ isBooleanLike "wereReady" = true := by
  have hoffset : offset? Char.isUpper "is日Open".toList = some 5 := by decide
  have hinside : ¬ IsBoundary "is日Open".toList 3 := by decide
  have hfalse : isBooleanLike "is日Open" = false := by decide
  have hready : MatchesStart booleanPattern "wereReady" := by decide
  obtain ⟨hmatches, -, hanswer, hvalid⟩ := isBooleanLike_iff_matchesStart "is日Open"
  rw [hfalse] at hanswer hmatches
  exact ⟨hoffset, hvalid 5 hoffset, mt isBoundary_iff_isValid.mpr hinside, hanswer,
    fun h => Bool.noConfusion (hmatches.mpr h), hready,
    (isBooleanLike_iff_matchesStart "wereReady").1.mpr hready⟩

end Name

end JsxLint
