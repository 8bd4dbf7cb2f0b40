/-! White space, the characters with the Unicode property `White_Space`, and trimming. -/
namespace JsxLint.Text

/-- The character has the property `White_Space`. -/
def isBlank (c : Char) : Bool :=
  ['\t', '\n', '\x0b', '\x0c', '\r', ' ', '\u0085', '\u00a0', '\u1680', '\u2028', '\u2029',
    '\u202f', '\u205f', '\u3000'].contains c ||
    (decide ('\u2000' ≤ c) && decide (c ≤ '\u200a'))

def trim (cs : List Char) : List Char :=
  ((cs.dropWhile isBlank).reverse.dropWhile isBlank).reverse

end JsxLint.Text
