import JsxLint.Json.Basic
import JsxLint.Json.Numeral

/-! The tokens of a JSON text. Strings may not hold raw control characters, and an escaped
surrogate must be the first or second half of a pair. -/
namespace JsxLint.Json

inductive Token
  | leftBrace
  | rightBrace
  | leftBracket
  | rightBracket
  | colon
  | comma
  | scalar (value : Json)
  deriving Repr

def isSpace (c : Char) : Bool :=
  [' ', '\n', '\t', '\r'].contains c

def hexValue? (c : Char) : Option Nat :=
  if c.isDigit then some (digitValue c)
  else if 'a' ≤ c ∧ c ≤ 'f' then some (c.toNat - 'a'.toNat + 10)
  else if 'A' ≤ c ∧ c ≤ 'F' then some (c.toNat - 'A'.toNat + 10)
  else none

def hexQuad? (a b c d : Char) : Option Nat := do
  return ((← hexValue? a) * 16 + (← hexValue? b)) * 256 + (← hexValue? c) * 16 + (← hexValue? d)

/-- The code unit is the first half of a surrogate pair. -/
def isHighSurrogate (n : Nat) : Bool :=
  decide (0xD800 ≤ n) && decide (n ≤ 0xDBFF)

def isLowSurrogate (n : Nat) : Bool :=
  decide (0xDC00 ≤ n) && decide (n ≤ 0xDFFF)

def pairedChar (high low : Nat) : Char :=
  Char.ofNat (0x10000 + (high - 0xD800) * 0x400 + (low - 0xDC00))

/-- The character that stands after a backslash for itself or for a control character. -/
def shortEscape? : Char → Option Char
  | '"' => some '"'
  | '\\' => some '\\'
  | '/' => some '/'
  | 'b' => some '\x08'
  | 'f' => some '\x0c'
  | 'n' => some '\n'
  | 'r' => some '\r'
  | 't' => some '\t'
  | _ => none

/-- Take an escaped code unit after `high?`, the first half of a pair still waiting for its
second. The result is the half that waits now and the character completed. -/
def takeUnit? : (high? : Option Nat) → Nat → Option (Option Nat × List Char)
  | none, n =>
    if isHighSurrogate n then some (some n, [])
    else if isLowSurrogate n then none
    else some (none, [Char.ofNat n])
  | some high, n => if isLowSurrogate n then some (none, [pairedChar high n]) else none

/-- The rest of a string, and what follows its closing quote. The characters read so far are in
`done`, the last first. -/
def readText? : (high? : Option Nat) → (done : List Char) → List Char → Option (String × List Char)
  | high?, done, '\\' :: 'u' :: a :: b :: c :: d :: rest => do
    let n ← hexQuad? a b c d
    let (high?, completed) ← takeUnit? high? n
    readText? high? (completed ++ done) rest
  | none, done, '"' :: rest => some (String.ofList done.reverse, rest)
  | none, done, '\\' :: e :: rest => do
    let c ← shortEscape? e
    readText? none (c :: done) rest
  | none, done, c :: rest => if c.toNat < 0x20 then none else readText? none (c :: done) rest
  | _, _, _ => none

/-- The token at the start of a text without leading space, and what follows it. -/
def next? : List Char → Option (Token × List Char)
  | '{' :: rest => some (.leftBrace, rest)
  | '}' :: rest => some (.rightBrace, rest)
  | '[' :: rest => some (.leftBracket, rest)
  | ']' :: rest => some (.rightBracket, rest)
  | ':' :: rest => some (.colon, rest)
  | ',' :: rest => some (.comma, rest)
  | '"' :: rest => (readText? none [] rest).map fun (s, rest) => (.scalar (.text s), rest)
  | 'n' :: 'u' :: 'l' :: 'l' :: rest => some (.scalar .null, rest)
  | 't' :: 'r' :: 'u' :: 'e' :: rest => some (.scalar (.boolean true), rest)
  | 'f' :: 'a' :: 'l' :: 's' :: 'e' :: rest => some (.scalar (.boolean false), rest)
  | cs => (afterNumeral? cs).map (.scalar .number, ·)

theorem readText?_length {high? : Option Nat} {done cs : List Char} {r : String × List Char}
    (h : readText? high? done cs = some r) : r.2.length < cs.length := by
  fun_induction readText? high? done cs with
  | case1 high? done a b c d rest ih =>
    simp only [Option.bind_eq_bind, Option.bind_eq_some_iff] at h
    obtain ⟨n, -, ⟨high', completed⟩, -, h⟩ := h
    have := ih high' completed h
    simp only [List.length_cons]; omega
  | case2 done rest => cases h; exact Nat.lt_succ_self _
  | case3 done e rest _ ih =>
    simp only [Option.bind_eq_bind, Option.bind_eq_some_iff] at h
    obtain ⟨c, -, h⟩ := h
    have := ih c h
    simp only [List.length_cons]; omega
  | case4 => cases h
  | case5 done c rest _ _ _ _ ih =>
    have := ih h
    simp only [List.length_cons]; omega
  | case6 => cases h

theorem next?_length {cs : List Char} {r : Token × List Char} (h : next? cs = some r) :
    r.2.length < cs.length := by
  unfold next? at h
  split at h
  case h_7 rest =>
    obtain ⟨p, hp, rfl⟩ := Option.map_eq_some_iff.1 h
    exact Nat.lt_succ_of_lt (readText?_length hp)
  case h_11 =>
    obtain ⟨rest, hp, rfl⟩ := Option.map_eq_some_iff.1 h
    exact afterNumeral?_length hp
  all_goals
    cases h
    simp only [List.length_cons]
    omega

def tokens? (cs : List Char) : Option (List Token) :=
  match cs.dropWhile isSpace, length_dropWhile_le isSpace cs with
  | [], _ => some []
  | c :: rest, hle =>
    match hn : next? (c :: rest) with
    | none => none
    | some (token, after) =>
      have : after.length < cs.length := Nat.lt_of_lt_of_le (next?_length hn) hle
      (tokens? after).map (token :: ·)
termination_by cs.length

end JsxLint.Json
