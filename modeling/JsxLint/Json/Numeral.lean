/-! Numbers in JSON: how far a numeral reaches and whether its value fits a double. The
significand is gathered in 64 bits, digits beyond that only scale it, and the value is the product
of the doubles nearest to the significand and to the power of ten. -/
namespace JsxLint.Json

def digitValue (c : Char) : Nat :=
  c.toNat - '0'.toNat

def digitsValue (ds : List Char) : Nat :=
  ds.foldl (fun n d => n * 10 + digitValue d) 0

/-- Append digits to a significand while it stays below 2^64, and count those appended. -/
def gather (significand : Nat) : List Char → Nat × Nat
  | [] => (significand, 0)
  | d :: ds =>
    let next := significand * 10 + digitValue d
    if next < Nat.pow 2 64 then
      let (result, taken) := gather next ds
      (result, taken + 1)
    else (significand, 0)

/-- The nearest number of at most 53 binary digits, the even one of two. -/
def nearestDouble (n : Nat) : Nat :=
  let unit := Nat.pow 2 (n.log2 - 52)
  let quotient := n / unit
  let twice := 2 * (n % unit)
  if unit < twice ∨ unit = twice ∧ quotient % 2 = 1 then (quotient + 1) * unit
  else quotient * unit

/-- The least number that is rounded to infinity. -/
def doubleLimit : Nat :=
  Nat.pow 2 1024 - Nat.pow 2 970

/-- The number `significand * 10 ^ exponent` does not overflow a double. -/
def fitsDouble (significand : Nat) (exponent : Int) : Bool :=
  significand = 0 || decide (exponent < 0) ||
    (decide (exponent ≤ 308) &&
      decide (nearestDouble significand * nearestDouble (Nat.pow 10 exponent.toNat) <
        doubleLimit))

structure Numeral where
  whole : List Char
  fraction : List Char
  exponentNegative : Bool
  exponent : List Char
  deriving DecidableEq, Repr

def Numeral.inRange (n : Numeral) : Bool :=
  let (head, taken) := gather 0 n.whole
  let (significand, places) := gather head n.fraction
  let power : Int := digitsValue n.exponent
  let scale : Int := (n.whole.length - taken : Nat) - (places : Int)
  fitsDouble significand (if n.exponentNegative then scale - power else scale + power)

def readDigits? (cs : List Char) : Option (List Char × List Char) :=
  match cs.takeWhile Char.isDigit with
  | [] => none
  | ds => some (ds, cs.dropWhile Char.isDigit)

/-- The whole part of a numeral: one digit, or several that do not begin with a zero. -/
def readWhole? (cs : List Char) : Option (List Char × List Char) :=
  match readDigits? cs with
  | some ('0' :: _ :: _, _) => none
  | parts => parts

def readFraction? : List Char → Option (List Char × List Char)
  | '.' :: rest => readDigits? rest
  | rest => some ([], rest)

def readSigned? : List Char → Option (Bool × List Char × List Char)
  | '-' :: rest => (readDigits? rest).map (true, ·)
  | '+' :: rest => (readDigits? rest).map (false, ·)
  | rest => (readDigits? rest).map (false, ·)

def readExponent? : List Char → Option (Bool × List Char × List Char)
  | 'e' :: rest => readSigned? rest
  | 'E' :: rest => readSigned? rest
  | rest => some (false, [], rest)

/-- What follows the longest numeral at the start of the text; `none` if there is no complete
numeral there or its value overflows. -/
def afterNumeral? (cs : List Char) : Option (List Char) := do
  let (whole, rest) ← readWhole? (if cs.head? = some '-' then cs.tail else cs)
  let (fraction, rest) ← readFraction? rest
  let (exponentNegative, exponent, rest) ← readExponent? rest
  if Numeral.inRange { whole, fraction, exponentNegative, exponent } then return rest else none

theorem length_dropWhile_le (p : Char → Bool) (cs : List Char) :
    (cs.dropWhile p).length ≤ cs.length :=
  (List.dropWhile_suffix p).length_le

theorem readDigits?_length {cs ds rest : List Char} (h : readDigits? cs = some (ds, rest)) :
    rest.length < cs.length := by
  have parts := congrArg List.length (List.takeWhile_append_dropWhile (p := Char.isDigit) (l := cs))
  rw [List.length_append] at parts
  unfold readDigits? at h
  split at h
  · cases h
  · rename_i hne
    obtain ⟨rfl, rfl⟩ := Prod.mk.inj (Option.some.inj h)
    have : (cs.takeWhile Char.isDigit).length ≠ 0 := fun h0 => hne (List.length_eq_zero_iff.1 h0)
    omega

theorem readWhole?_length {cs ds rest : List Char} (h : readWhole? cs = some (ds, rest)) :
    rest.length < cs.length := by
  unfold readWhole? at h
  split at h
  · cases h
  · exact readDigits?_length h

theorem readFraction?_length {cs ds rest : List Char} (h : readFraction? cs = some (ds, rest)) :
    rest.length ≤ cs.length := by
  unfold readFraction? at h
  split at h
  · exact Nat.le_of_lt (Nat.lt_trans (readDigits?_length h) (Nat.lt_succ_self _))
  · cases h; exact Nat.le_refl _

theorem readSigned?_length {cs : List Char} {r : Bool × List Char × List Char}
    (h : readSigned? cs = some r) : r.2.2.length < cs.length := by
  unfold readSigned? at h
  split at h <;>
    · obtain ⟨p, hp, rfl⟩ := Option.map_eq_some_iff.1 h
      have := readDigits?_length hp
      simp only [List.length_cons] at *
      omega

theorem readExponent?_length {cs : List Char} {r : Bool × List Char × List Char}
    (h : readExponent? cs = some r) : r.2.2.length ≤ cs.length := by
  unfold readExponent? at h
  split at h
  · have := readSigned?_length h; simp only [List.length_cons]; omega
  · have := readSigned?_length h; simp only [List.length_cons]; omega
  · cases h; exact Nat.le_refl _

theorem afterNumeral?_length {cs rest : List Char} (h : afterNumeral? cs = some rest) :
    rest.length < cs.length := by
  simp only [afterNumeral?, Option.bind_eq_bind, Option.bind_eq_some_iff] at h
  obtain ⟨⟨w, r₁⟩, h₁, ⟨f, r₂⟩, h₂, ⟨n, e, r₃⟩, h₃, h⟩ := h
  split at h
  · cases h
    have l₁ := readWhole?_length h₁
    have l₂ := readFraction?_length h₂
    have l₃ := readExponent?_length h₃
    have l₀ : (if cs.head? = some '-' then cs.tail else cs).length ≤ cs.length := by
      split <;> simp
    simp only at l₂ l₃ ⊢
    omega
  · cases h

end JsxLint.Json
