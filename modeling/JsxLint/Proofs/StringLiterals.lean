import JsxLint.Json.Token
import JsxLint.Rule.JsxStringBraces
import Mathlib.Tactic.Common

/-! The literal that the fix of `jsx-string-braces` writes has the value of the attribute string it
replaces. `Script.string?` reads string literals by the rules of scripts, of 2019 and strict code:
line and paragraph separators may stand in a literal, line feeds and carriage returns may not, and
there are no octal escapes. A value is the sequence of its code units, since an escape names a code
unit and not always a character. How an attribute string is parsed is not defined here; what is
relied on is stated in `JsxStringBraces.Spells`. -/
namespace JsxLint

namespace Script

/-- The code units of a code point: one, or a surrogate pair. -/
def units (code : Nat) : List UInt16 :=
  if code < 0x10000 then [code.toUInt16]
  else [(0xD800 + (code - 0x10000) / 0x400).toUInt16,
    (0xDC00 + (code - 0x10000) % 0x400).toUInt16]

def valueOf (s : List Char) : List UInt16 :=
  s.flatMap fun c => units c.toNat

/-- The rest of an escape by code point, after its opening brace: any number of digits and the
closing brace. -/
def codePoint? (text : List Char) : Option (List UInt16 × List Char) := do
  let digits ← (text.takeWhile (· ≠ '\x7d')).mapM Json.hexValue?
  let code := digits.foldl (fun n d => 16 * n + d) 0
  let _ :: rest := text.dropWhile (· ≠ '\x7d') | none
  if digits.isEmpty || decide (0x10FFFF < code) then none else return (units code, rest)

/-- What an escape stands for, read after its backslash, and what follows it. A line break after a
backslash stands for nothing; a character that is not the mark of an escape stands for itself. -/
def escape? : List Char → Option (List UInt16 × List Char)
  | 'b' :: rest => some ([8], rest)
  | 't' :: rest => some ([9], rest)
  | 'n' :: rest => some ([10], rest)
  | 'v' :: rest => some ([11], rest)
  | 'f' :: rest => some ([12], rest)
  | 'r' :: rest => some ([13], rest)
  | '\r' :: '\n' :: rest => some ([], rest)
  | 'x' :: a :: b :: rest => do return ([(← Json.hexQuad? '0' '0' a b).toUInt16], rest)
  | 'u' :: '\x7b' :: rest => codePoint? rest
  | 'u' :: a :: b :: c :: d :: rest => do return ([(← Json.hexQuad? a b c d).toUInt16], rest)
  | c :: rest =>
    if c ∈ ['\n', '\r', '\u2028', '\u2029'] then some ([], rest)
    else if c = '0' then if rest.head?.any Char.isDigit then none else some ([0], rest)
    else if c.isDigit || c = 'x' || c = 'u' then none
    else some (units c.toNat, rest)
  | [] => none

lemma codePoint?_length {text : List Char} {r : List UInt16 × List Char}
    (h : codePoint? text = some r) : r.2.length < text.length := by
  simp only [codePoint?, Option.bind_eq_bind, Option.bind_eq_some_iff] at h
  obtain ⟨digits, -, h⟩ := h
  split at h
  · rename_i brace rest hdrop
    have hle := Json.length_dropWhile_le (· ≠ '\x7d') text
    rw [hdrop, List.length_cons] at hle
    split at h
    · cases h
    · cases h
      exact hle
  · cases h

lemma escape?_length {text : List Char} {r : List UInt16 × List Char}
    (h : escape? text = some r) : r.2.length < text.length := by
  unfold escape? at h
  split at h
  case h_8 | h_10 =>
    simp only [Option.bind_eq_bind, Option.bind_eq_some_iff] at h
    obtain ⟨n, -, h⟩ := h
    cases h
    simp only [List.length_cons]
    omega
  case h_9 =>
    have := codePoint?_length h
    simp only [List.length_cons]
    omega
  case h_11 =>
    split_ifs at h <;> cases h <;> exact Nat.lt_succ_self _
  case h_12 => cases h
  all_goals
    cases h
    simp only [List.length_cons]
    omega

def body? (quote : Char) : List Char → Option (List UInt16 × List Char)
  | [] => none
  | c :: rest =>
    if c = quote then some ([], rest)
    else if c = '\n' ∨ c = '\r' then none
    else if c = '\\' then
      match h : escape? rest with
      | none => none
      | some (value, after) =>
        have : after.length < rest.length := escape?_length h
        (body? quote after).map (Prod.map (value ++ ·) id)
    else (body? quote rest).map (Prod.map (units c.toNat ++ ·) id)
termination_by text => text.length

def string? : List Char → Option (List UInt16 × List Char)
  | '"' :: rest => body? '"' rest
  | '\x27' :: rest => body? '\x27' rest
  | _ => none

def isPlain (quote c : Char) : Bool :=
  decide (c ∉ ['\\', '\n', '\r', quote])

lemma body?_cons_of_isPlain {quote c : Char} (h : isPlain quote c = true) (rest : List Char) :
    body? quote (c :: rest) = (body? quote rest).map (Prod.map (units c.toNat ++ ·) id) := by
  have hc : c ≠ '\\' ∧ c ≠ '\n' ∧ c ≠ '\r' ∧ c ≠ quote := by simpa [isPlain] using h
  rw [body?, if_neg hc.2.2.2, if_neg (by simp [hc.2.1, hc.2.2.1]), if_neg hc.1]

lemma body?_escape {quote : Char} (hquote : quote ≠ '\\') {text after : List Char}
    {value : List UInt16} (h : escape? text = some (value, after)) :
    body? quote ('\\' :: text) = (body? quote after).map (Prod.map (value ++ ·) id) := by
  rw [body?, if_neg hquote.symm, if_neg (by decide), if_pos rfl]
  split
  · rename_i hnone
    rw [h] at hnone
    cases hnone
  · rename_i value' after' hsome
    rw [h] at hsome
    cases hsome
    rfl

lemma body?_quote (quote : Char) (rest : List Char) :
    body? quote (quote :: rest) = some ([], rest) := by
  rw [body?, if_pos rfl]

/-- A text that is read piece by piece, each piece to the units of its character, is read to its
value. -/
lemma body?_flatMap {quote : Char} {piece : Char → List Char} {text : List Char}
    (h : ∀ c ∈ text, ∀ rest, body? quote (piece c ++ rest) =
      (body? quote rest).map (Prod.map (units c.toNat ++ ·) id)) (rest : List Char) :
    body? quote (text.flatMap piece ++ quote :: rest) = some (valueOf text, rest) := by
  induction text with
  | nil => exact body?_quote quote rest
  | cons c text ih =>
    have htext := ih fun c' hc' => h c' (List.mem_cons_of_mem c hc')
    rw [List.flatMap_cons, List.append_assoc, h c List.mem_cons_self, htext]
    rfl

lemma hexQuad?_hexPair {n : Nat} (h : n < 0x20) :
    Json.hexQuad? '0' '0' (Nat.digitChar (n / 16)) (Nat.digitChar (n % 16)) = some n := by
  have hall : ∀ n < 0x20,
      Json.hexQuad? '0' '0' (Nat.digitChar (n / 16)) (Nat.digitChar (n % 16)) = some n := by
    decide
  exact hall n h

/-- Between double quotes a character stands for itself, or its escape stands for it. -/
lemma escaped_cases (c : Char) :
    (isPlain '"' c = true ∧ Text.escaped c = [c]) ∨
    ∃ mark, Text.escaped c = '\\' :: mark ∧
      ∀ rest, escape? (mark ++ rest) = some (units c.toNat, rest) := by
  unfold Text.escaped
  split
  case h_8 _ hquote hslash _ _ hfeed _ hreturn =>
    split
    · rename_i hcontrol
      refine Or.inr ⟨'u' :: '0' :: '0' :: Text.hexPair c.toNat, rfl, fun rest => ?_⟩
      have hunits : units c.toNat = [c.toNat.toUInt16] := if_pos (by omega)
      simp [Text.hexPair, escape?, hexQuad?_hexPair hcontrol, hunits]
    · exact Or.inl ⟨by simpa [isPlain] using ⟨hslash, hfeed, hreturn, hquote⟩, rfl⟩
  all_goals exact Or.inr ⟨_, rfl, fun rest => rfl⟩

lemma body?_escaped (c : Char) (rest : List Char) :
    body? '"' (Text.escaped c ++ rest) =
      (body? '"' rest).map (Prod.map (units c.toNat ++ ·) id) := by
  rcases escaped_cases c with ⟨hplain, hself⟩ | ⟨mark, hescaped, hread⟩
  · rw [hself]
    exact body?_cons_of_isPlain hplain rest
  · rw [hescaped]
    exact body?_escape (by decide) (hread rest)

/-- A literal in double quotes is read to the text it was made from. -/
theorem string?_quoted (s : String) (rest : List Char) :
    string? ((Text.quoted s).toList ++ rest) = some (valueOf s.toList, rest) := by
  have hbody : body? '"' (s.toList.flatMap Text.escaped ++ '"' :: rest) =
      some (valueOf s.toList, rest) := body?_flatMap (fun c _ => body?_escaped c) rest
  simpa [Text.quoted, string?] using hbody

/-- A text without anything special is read from between its quotes as it stands. -/
theorem string?_plain {quote : Char} (hquote : quote = '"' ∨ quote = '\x27') {text : List Char}
    (h : ∀ c ∈ text, isPlain quote c = true) (rest : List Char) :
    string? (quote :: text ++ quote :: rest) = some (valueOf text, rest) := by
  have hpieces : ∀ c ∈ text, ∀ rest, body? quote ([c] ++ rest) =
      (body? quote rest).map (Prod.map (units c.toNat ++ ·) id) :=
    fun c hc => body?_cons_of_isPlain (h c hc)
  have hbody := body?_flatMap hpieces rest
  rw [List.flatMap_singleton'] at hbody
  rcases hquote with rfl | rfl
  · exact hbody
  · exact hbody

example : string? "'a\\x41\\u\x7b1F600\x7d\\\nz'+1".toList =
      some (valueOf "aA😀z".toList, "+1".toList) ∧
    string? "\"a'".toList = none := by
  decide +kernel

end Script

namespace JsxStringBraces

/-- The text `raw` may be how an attribute string with this value is written: the value between two
quotes, unless it holds an entity, or nothing where the place does not fit the source. -/
inductive Spells (value : String) : (raw : String) → Prop
  | between {quote : Char} {inner : String} (isQuote : quote = '"' ∨ quote = '\x27')
    (inside : quote ∉ inner.toList) (parsed : '&' ∉ inner.toList → value = inner) :
    Spells value (String.ofList (quote :: inner.toList ++ [quote]))
  | missing : Spells value ""

lemma literal?_eq_none_iff (raw value : String) :
    literal? raw value = none ↔ '&' ∈ raw.toList := by
  unfold literal?
  split_ifs with hentity
  · simpa using hentity
  · simpa using hentity
  · simpa using hentity

/-- A literal quotes the value, or it is the string as written. -/
lemma literal?_cases {raw value literal : String} (h : literal? raw value = some literal) :
    '&' ∉ raw.toList ∧
      (literal = Text.quoted value ∨ literal = raw ∧ raw.toList ≠ [] ∧
        ∀ c ∈ raw.toList, c ≠ '\\' ∧ c ≠ '\n' ∧ c ≠ '\r') := by
  have hentity : '&' ∉ raw.toList := by
    rw [← literal?_eq_none_iff raw value, h]
    exact Option.some_ne_none literal
  refine ⟨hentity, ?_⟩
  rw [literal?, if_neg (by simpa using hentity)] at h
  split_ifs at h with hspecial
  · exact Or.inl (Option.some.inj h).symm
  · simp only [Bool.or_eq_true, not_or, List.isEmpty_iff] at hspecial
    exact Or.inr ⟨(Option.some.inj h).symm, hspecial.1, by simpa using hspecial.2⟩

/-- There is a literal unless the string holds an entity, and reading the literal stops at its end
with exactly the value of the string. -/
theorem literal?_reads_to_value {raw value : String} (h : Spells value raw) :
    (literal? raw value = none ↔ '&' ∈ raw.toList) ∧
      ∀ literal, literal? raw value = some literal → ∀ rest,
        Script.string? (literal.toList ++ rest) = some (Script.valueOf value.toList, rest) := by
  refine ⟨literal?_eq_none_iff raw value, fun literal hliteral rest => ?_⟩
  obtain ⟨hentity, rfl | ⟨rfl, hne, hplain⟩⟩ := literal?_cases hliteral
  · exact Script.string?_quoted value rest
  · cases h with
    | missing => exact absurd rfl hne
    | @between quote inner isQuote inside parsed =>
      have hmem : ∀ c ∈ inner.toList,
          c ∈ (String.ofList (quote :: inner.toList ++ [quote])).toList := by
        intro c hc
        simp [hc]
      have hvalue : value = inner := parsed fun hin => hentity (hmem _ hin)
      have hinner : ∀ c ∈ inner.toList, Script.isPlain quote c = true := by
        intro c hc
        have hspecial := hplain c (hmem c hc)
        have hquote : c ≠ quote := fun heq => inside (heq ▸ hc)
        simpa [Script.isPlain] using ⟨hspecial.1, hspecial.2.1, hspecial.2.2, hquote⟩
      have hread := Script.string?_plain isQuote hinner rest
      simpa [hvalue] using hread

/-- Written `'"C:\new" 😀'`: the other quote, a backslash and a surrogate pair. -/
theorem literal?_reads_to_value_backslash :
    let value := "\"C:\\new\" 😀"
    let raw := "'\"C:\\new\" 😀'"
    let literal := "\"\\\"C:\\\\new\\\" 😀\""
    Spells value raw ∧ literal? raw value = some literal ∧
      Script.string? (literal.toList ++ ['\x7d']) =
        some (Script.valueOf value.toList, ['\x7d']) := by
  intro value raw literal
  have hraw : raw = String.ofList ('\x27' :: value.toList ++ ['\x27']) := by decide
  have hspells : Spells value raw := by
    rw [hraw]
    exact .between (Or.inr rfl) (by decide) fun _ => rfl
  have hliteral : literal? raw value = some literal := by decide
  exact ⟨hspells, hliteral, (literal?_reads_to_value hspells).2 literal hliteral _⟩

end JsxStringBraces

end JsxLint
