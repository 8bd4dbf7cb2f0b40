import JsxLint.Text.Blank

/-! Messages with placeholders. A placeholder is a key between double braces, with white space
around it ignored; it is replaced by the value of the key, which is not read again. A placeholder
whose key has no value stays as written, and so do double braces that are never closed. -/
namespace JsxLint

/-- The values of placeholders in the order in which their keys were first given. -/
abbrev Data := List (String × String)

namespace Data

/-- Give `key` a value, in its old place if it has one. -/
def insert (key value : String) : Data → Data
  | [] => [(key, value)]
  | (k, v) :: rest => if k = key then (k, value) :: rest else (k, v) :: insert key value rest

def get? (key : String) (data : Data) : Option String :=
  data.lookup key

theorem keys_insert (key value : String) (data : Data) :
    (data.insert key value).map Prod.fst =
      if key ∈ data.map Prod.fst then data.map Prod.fst else data.map Prod.fst ++ [key] := by
  induction data with
  | nil => simp [insert]
  | cons entry rest ih =>
    obtain ⟨k, v⟩ := entry
    by_cases h : k = key
    · simp [insert, h]
    · have h' : ¬ key = k := fun e => h e.symm
      simp only [insert, if_neg h, List.map_cons, ih, List.mem_cons, h', false_or]
      split <;> simp

end Data

namespace Template

inductive Piece
  | text (c : Char)
  | placeholder (key : List Char)
  deriving DecidableEq, Repr

namespace Piece

def written : Piece → List Char
  | text c => [c]
  | placeholder key => '{' :: '{' :: key ++ ['}', '}']

def filled (data : Data) : Piece → List Char
  | text c => [c]
  | placeholder key =>
    match data.get? (String.ofList (Text.trim key)) with
    | some value => value.toList
    | none => (placeholder key).written

end Piece

/-- The pieces of a text; `pending` is the key read so far after an opening pair of braces. -/
def piecesFrom : (pending : Option (List Char)) → List Char → List Piece
  | none, '{' :: '{' :: rest => piecesFrom (some []) rest
  | none, c :: rest => .text c :: piecesFrom none rest
  | none, [] => []
  | some key, '}' :: '}' :: rest => .placeholder key :: piecesFrom none rest
  | some key, c :: rest => piecesFrom (some (key ++ [c])) rest
  | some key, [] => ('{' :: '{' :: key).map .text

def pieces (template : String) : List Piece :=
  piecesFrom none template.toList

def render (template : String) (data : Data) : String :=
  String.ofList ((pieces template).flatMap (·.filled data))

theorem flatMap_written_piecesFrom (pending : Option (List Char)) (cs : List Char) :
    (piecesFrom pending cs).flatMap Piece.written =
      (pending.map fun key => '{' :: '{' :: key).getD [] ++ cs := by
  fun_induction piecesFrom pending cs with
  | case1 rest ih => simpa using ih
  | case2 c rest _ ih => simp [Piece.written, ih]
  | case3 => rfl
  | case4 key rest ih => simp [Piece.written, ih]
  | case5 key c rest _ ih => simpa using ih
  | case6 key => simp [List.flatMap_map, Piece.written]

/-- The pieces of a template make up the whole of it. -/
theorem flatMap_written_pieces (template : String) :
    (pieces template).flatMap Piece.written = template.toList := by
  rw [pieces, flatMap_written_piecesFrom]; rfl

end Template

end JsxLint
