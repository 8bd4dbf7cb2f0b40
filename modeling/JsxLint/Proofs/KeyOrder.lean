import JsxLint.Json.Reader
import Mathlib.Data.String.Basic
import Mathlib.Tactic.Common

/-! Objects that are read have their entries in ascending order of their keys, each key once, and
so have the objects inside of them. The order of texts is that of their bytes in UTF-8, which is
also the order of their code points. -/
namespace JsxLint

namespace Text

def bytes (s : String) : List UInt8 :=
  s.toUTF8.data.toList

lemma bytes_eq_flatMap (s : String) : bytes s = s.toList.flatMap String.utf8EncodeChar := by
  rw [bytes, String.toUTF8, ← String.utf8Encode_toList, List.utf8Encode,
    List.toList_data_toByteArray]

lemma ofNat_cons_lt {m n : Nat} (h : m < n) (hn : n < 256) (xs ys : List UInt8) :
    UInt8.ofNat m :: xs < UInt8.ofNat n :: ys := by
  apply List.cons_lt_cons_iff.mpr
  left
  rw [UInt8.lt_iff_toNat_lt, UInt8.toNat_ofNat', UInt8.toNat_ofNat']
  omega

/-- Digits to base `r` that follow the same digits: the smaller one decides, equal ones leave the
decision to what follows. -/
lemma digit_cons_lt {m n r base : Nat} (hr : r + base ≤ 256) (hpos : 0 < r)
    (hbefore : m / r = n / r) (hle : m ≤ n) {xs ys : List UInt8} (h : m = n → xs < ys) :
    UInt8.ofNat (m % r + base) :: xs < UInt8.ofNat (n % r + base) :: ys := by
  rcases Nat.lt_or_eq_of_le hle with hlt | heq
  · have hm := Nat.div_add_mod m r
    have hn := Nat.div_add_mod n r
    have hdigit := Nat.mod_lt n hpos
    rw [hbefore] at hm
    exact ofNat_cons_lt (by omega) (by omega) xs ys
  · rw [heq]
    exact List.cons_lt_cons_iff.mpr (Or.inr ⟨rfl, h heq⟩)

/-- The encoding of the smaller character comes first, whatever follows the two: the bytes are
digits to base 64, and a longer encoding has a larger first byte. -/
lemma utf8EncodeChar_append_lt {c d : Char} (h : c < d) (xs ys : List UInt8) :
    String.utf8EncodeChar c ++ xs < String.utf8EncodeChar d ++ ys := by
  have hlt : c.val.toNat < d.val.toNat := h
  have hmax : d.val.toNat < 0x110000 := by
    have hvalid := d.valid
    simp only [UInt32.isValidChar, Nat.isValidChar] at hvalid
    omega
  unfold String.utf8EncodeChar
  generalize c.val.toNat = m at hlt
  generalize d.val.toNat = n at hlt hmax
  dsimp only
  by_cases hm₁ : m ≤ 0x7f
  · simp only [hm₁, if_true]
    split_ifs <;> exact ofNat_cons_lt (by omega) (by omega) _ _
  · have hn₁ : ¬ n ≤ 0x7f := by omega
    simp only [hm₁, hn₁, if_false]
    by_cases hm₂ : m ≤ 0x7ff
    · simp only [hm₂, if_true]
      split_ifs
      · refine digit_cons_lt (by omega) (by omega) (by omega) (by omega) fun heq => ?_
        exact digit_cons_lt (by omega) (by omega) heq (by omega) fun heq => by omega
      · exact ofNat_cons_lt (by omega) (by omega) _ _
      · exact ofNat_cons_lt (by omega) (by omega) _ _
    · have hn₂ : ¬ n ≤ 0x7ff := by omega
      simp only [hm₂, hn₂, if_false]
      by_cases hm₃ : m ≤ 0xffff
      · simp only [hm₃, if_true]
        split_ifs
        · refine digit_cons_lt (by omega) (by omega) (by omega) (by omega) fun heq => ?_
          refine digit_cons_lt (by omega) (by omega) (by omega) (by omega) fun heq => ?_
          exact digit_cons_lt (by omega) (by omega) heq (by omega) fun heq => by omega
        · exact ofNat_cons_lt (by omega) (by omega) _ _
      · have hn₃ : ¬ n ≤ 0xffff := by omega
        simp only [hm₃, hn₃, if_false]
        refine digit_cons_lt (by omega) (by omega) (by omega) (by omega) fun heq => ?_
        refine digit_cons_lt (by omega) (by omega) (by omega) (by omega) fun heq => ?_
        refine digit_cons_lt (by omega) (by omega) (by omega) (by omega) fun heq => ?_
        exact digit_cons_lt (by omega) (by omega) heq (by omega) fun heq => by omega

lemma flatMap_utf8EncodeChar_lt {a b : List Char} (h : a < b) :
    a.flatMap String.utf8EncodeChar < b.flatMap String.utf8EncodeChar := by
  induction h with
  | @nil c cs =>
    rw [List.flatMap_nil, List.flatMap_cons]
    cases hc : String.utf8EncodeChar c with
    | nil => exact absurd hc (by simp)
    | cons byte rest => exact List.nil_lt_cons _ _
  | rel h => exact utf8EncodeChar_append_lt h _ _
  | cons _ ih => exact List.append_left_lt ih

/-- Texts come in the order of their bytes. -/
theorem bytes_lt_bytes_iff {a b : String} : bytes a < bytes b ↔ a < b := by
  have hbytes : ∀ {a b : String}, a < b → bytes a < bytes b := by
    intro a b hab
    rw [bytes_eq_flatMap, bytes_eq_flatMap]
    exact flatMap_utf8EncodeChar_lt (String.lt_iff.mp hab)
  constructor
  · intro h
    rcases lt_trichotomy a b with hlt | rfl | hgt
    · exact hlt
    · exact absurd h (List.lt_irrefl _)
    · exact absurd (hbytes hgt) (List.lt_asymm h)
  · exact hbytes

end Text

namespace Json

/-- The keys are in ascending order of their bytes, so that each stands once. -/
def Entries.Ascending (entries : Entries) : Prop :=
  entries.Pairwise fun a b => Text.bytes a.1 < Text.bytes b.1

/-- All objects in the value have their entries in ascending order. -/
inductive Ordered : Json → Prop
  | null : Ordered null
  | boolean (value : Bool) : Ordered (boolean value)
  | number : Ordered number
  | text (value : String) : Ordered (text value)
  | array {items : List Json} (inner : ∀ item ∈ items, Ordered item) : Ordered (array items)
  | object {entries : Entries} (ascending : entries.Ascending)
    (inner : ∀ entry ∈ entries, Ordered entry.2) : Ordered (object entries)

lemma ordered_object_iff {entries : Entries} :
    (object entries).Ordered ↔ entries.Ascending ∧ ∀ entry ∈ entries, entry.2.Ordered := by
  constructor
  · intro h
    cases h with
    | object ascending inner => exact ⟨ascending, inner⟩
  · rintro ⟨ascending, inner⟩
    exact .object ascending inner

lemma Entries.mem_insert {key : String} {value : Json} {entries : Entries} {entry : String × Json}
    (h : entry ∈ entries.insert key value) : entry = (key, value) ∨ entry ∈ entries := by
  fun_induction Entries.insert key value entries with
  | case1 => simpa using h
  | case2 k v rest hlt => simpa using h
  | case3 v rest hne =>
    rcases List.mem_cons.mp h with rfl | hmem
    · exact Or.inl rfl
    · exact Or.inr (List.mem_cons_of_mem _ hmem)
  | case4 k v rest hlt hne ih =>
    rcases List.mem_cons.mp h with rfl | hmem
    · exact Or.inr List.mem_cons_self
    · rcases ih hmem with hsame | hrest
      · exact Or.inl hsame
      · exact Or.inr (List.mem_cons_of_mem _ hrest)

lemma Entries.Ascending.insert {entries : Entries} (h : entries.Ascending) (key : String)
    (value : Json) : (entries.insert key value).Ascending := by
  fun_induction Entries.insert key value entries with
  | case1 => exact List.pairwise_singleton _ _
  | case2 k v rest hlt =>
    have hkey : Text.bytes key < Text.bytes k := Text.bytes_lt_bytes_iff.mpr hlt
    refine List.pairwise_cons.mpr ⟨?_, h⟩
    intro entry hentry
    rcases List.mem_cons.mp hentry with rfl | hmem
    · exact hkey
    · exact List.lt_trans hkey ((List.pairwise_cons.mp h).1 entry hmem)
  | case3 v rest hne =>
    obtain ⟨hfirst, hrest⟩ := List.pairwise_cons.mp h
    exact List.pairwise_cons.mpr ⟨hfirst, hrest⟩
  | case4 k v rest hlt hne ih =>
    obtain ⟨hfirst, hrest⟩ := List.pairwise_cons.mp h
    refine List.pairwise_cons.mpr ⟨?_, ih hrest⟩
    intro entry hentry
    rcases Entries.mem_insert hentry with rfl | hmem
    · have hgt : k < key := lt_of_le_of_ne (not_lt.mp hlt) (Ne.symm hne)
      exact Text.bytes_lt_bytes_iff.mpr hgt
    · exact hfirst entry hmem

lemma ordered_insert {entries : Entries} {value : Json} (h : (object entries).Ordered)
    (hvalue : value.Ordered) (key : String) : (object (entries.insert key value)).Ordered := by
  obtain ⟨ascending, inner⟩ := ordered_object_iff.mp h
  refine .object (ascending.insert key value) ?_
  intro entry hentry
  rcases Entries.mem_insert hentry with rfl | hmem
  · exact hvalue
  · exact inner entry hmem

lemma ordered_snoc {items : List Json} {value : Json} (h : (array items).Ordered)
    (hvalue : value.Ordered) : (array (items ++ [value])).Ordered := by
  cases h with
  | array inner =>
    refine .array ?_
    intro item hitem
    rcases List.mem_append.mp hitem with hmem | hmem
    · exact inner item hmem
    · rw [List.mem_singleton.mp hmem]
      exact hvalue

lemma ordered_object_nil : (object []).Ordered :=
  .object List.Pairwise.nil (by simp)

lemma ordered_array_nil : (array []).Ordered :=
  .array (by simp)

def Token.Ordered : Token → Prop
  | scalar v => v.Ordered
  | _ => True

lemma Token.ordered_of_next? {cs : List Char} {r : Token × List Char} (h : next? cs = some r) :
    r.1.Ordered := by
  unfold next? at h
  split at h
  case h_7 rest =>
    obtain ⟨p, -, rfl⟩ := Option.map_eq_some_iff.mp h
    exact .text p.1
  case h_8 =>
    cases h
    exact .null
  case h_9 | h_10 =>
    cases h
    exact .boolean _
  case h_11 =>
    obtain ⟨rest, -, rfl⟩ := Option.map_eq_some_iff.mp h
    exact .number
  all_goals
    cases h
    trivial

lemma exists_of_tokens?_eq_cons {cs : List Char} {token : Token} {tokens : List Token}
    (h : tokens? cs = some (token :: tokens)) :
    ∃ start after, next? start = some (token, after) ∧ tokens? after = some tokens := by
  rw [tokens?] at h
  split at h
  · cases h
  · split at h
    · cases h
    · rename_i first after hnext
      obtain ⟨rest, hrest, hsame⟩ := Option.map_eq_some_iff.mp h
      cases hsame
      exact ⟨_, after, hnext, hrest⟩

lemma ordered_of_tokens? {cs : List Char} {tokens : List Token} (h : tokens? cs = some tokens) :
    ∀ token ∈ tokens, token.Ordered := by
  induction tokens generalizing cs with
  | nil => simp
  | cons token tokens ih =>
    obtain ⟨start, after, hnext, hrest⟩ := exists_of_tokens?_eq_cons h
    exact List.forall_mem_cons.mpr ⟨Token.ordered_of_next? hnext, ih hrest⟩

def Frame.Ordered : Frame → Prop
  | .array items => (Json.array items).Ordered
  | .object entries _ => (Json.object entries).Ordered

namespace State

/-- Everything read so far is in order: the value or the entries at hand, and what the open
containers hold. -/
def Ordered : State → Prop
  | .value outer | .arrayStart outer | .objectStart outer => ∀ frame ∈ outer, frame.Ordered
  | .key entries outer | .colon entries _ outer =>
    (Json.object entries).Ordered ∧ ∀ frame ∈ outer, frame.Ordered
  | .complete v outer => v.Ordered ∧ ∀ frame ∈ outer, frame.Ordered

lemma ordered_of_begin? {outer : List Frame} {token : Token} {next : State}
    (h : begin? outer token = some next) (houter : ∀ frame ∈ outer, frame.Ordered)
    (htoken : token.Ordered) : next.Ordered := by
  unfold begin? at h
  split at h
  · cases h
    exact ⟨htoken, houter⟩
  · split at h <;> cases h
    exact houter
  · split at h <;> cases h
    exact houter
  · cases h

lemma ordered_of_follow? {v : Json} {outer : List Frame} {token : Token} {next : State}
    (h : follow? v outer token = some next) (hv : v.Ordered)
    (houter : ∀ frame ∈ outer, frame.Ordered) : next.Ordered := by
  unfold follow? at h
  split at h
  · obtain ⟨hframe, houter⟩ := List.forall_mem_cons.mp houter
    cases h
    exact List.forall_mem_cons.mpr ⟨ordered_snoc hframe hv, houter⟩
  · obtain ⟨hframe, houter⟩ := List.forall_mem_cons.mp houter
    cases h
    exact ⟨ordered_snoc hframe hv, houter⟩
  · obtain ⟨hframe, houter⟩ := List.forall_mem_cons.mp houter
    cases h
    exact ⟨ordered_insert hframe hv _, houter⟩
  · obtain ⟨hframe, houter⟩ := List.forall_mem_cons.mp houter
    cases h
    exact ⟨ordered_insert hframe hv _, houter⟩
  · cases h

/-- Reading a token keeps what is read in order. -/
theorem ordered_of_step? {state next : State} {token : Token} (h : state.step? token = some next)
    (hstate : state.Ordered) (htoken : token.Ordered) : next.Ordered := by
  unfold step? at h
  split at h
  · exact ordered_of_begin? h hstate htoken
  · cases h
    exact ⟨ordered_array_nil, hstate⟩
  · exact ordered_of_begin? h (List.forall_mem_cons.mpr ⟨ordered_array_nil, hstate⟩) htoken
  · cases h
    exact ⟨ordered_object_nil, hstate⟩
  · cases h
    exact ⟨ordered_object_nil, hstate⟩
  · cases h
    exact hstate
  · cases h
    exact List.forall_mem_cons.mpr hstate
  · exact ordered_of_follow? h hstate.1 hstate.2
  · cases h

theorem ordered_of_foldlM_step? {tokens : List Token} {state last : State}
    (h : tokens.foldlM step? state = some last) (hstate : state.Ordered)
    (htokens : ∀ token ∈ tokens, token.Ordered) : last.Ordered := by
  induction tokens generalizing state with
  | nil =>
    cases h
    exact hstate
  | cons token tokens ih =>
    obtain ⟨htoken, htokens⟩ := List.forall_mem_cons.mp htokens
    rw [List.foldlM_cons] at h
    obtain ⟨next, hnext, hrest⟩ := Option.bind_eq_some_iff.mp h
    exact ih hrest (ordered_of_step? hnext hstate htoken) htokens

end State

theorem ordered_of_read? {cs : List Char} {v : Json} (h : read? cs = some v) : v.Ordered := by
  unfold read? at h
  obtain ⟨tokens, htokens, hrun⟩ := Option.bind_eq_some_iff.mp h
  obtain ⟨last, hlast, hvalue⟩ := Option.bind_eq_some_iff.mp hrun
  have hordered : last.Ordered :=
    State.ordered_of_foldlM_step? hlast (by simp [State.Ordered]) (ordered_of_tokens? htokens)
  split at hvalue
  · cases hvalue
    exact hordered.1
  · cases hvalue

/-- Every object that is read from a text, on its own or inside another one, has its keys in
ascending order, each once. -/
theorem ordered_of_readObject {text : String} {entries : Entries}
    (h : readObject text = .ok entries) : (object entries).Ordered := by
  unfold readObject at h
  split at h
  · split at h
    · rename_i hread
      cases h
      exact ordered_of_read? hread
    · cases h
  · split at h <;> cases h

end Json

end JsxLint
