/-! Operators, as far as the conventions tell them apart. Any further operator keeps the symbol
it is written with. -/
namespace JsxLint

inductive LogicalOp
  | and
  | or
  | coalesce
  deriving DecidableEq, Repr

namespace LogicalOp

def ofSymbol? : String → Option LogicalOp
  | "&&" => some .and
  | "||" => some .or
  | "??" => some .coalesce
  | _ => none

end LogicalOp

inductive UnaryOp
  | not
  | other (symbol : String)
  deriving DecidableEq, Repr

namespace UnaryOp

def ofSymbol : String → UnaryOp
  | "!" => .not
  | symbol => .other symbol

end UnaryOp

/-- Operators between two operands, both always evaluated. -/
inductive BinaryOp
  | equal
  | strictEqual
  | unequal
  | strictUnequal
  | less
  | greater
  | lessEqual
  | greaterEqual
  | other (symbol : String)
  deriving DecidableEq, Repr

namespace BinaryOp

def ofSymbol : String → BinaryOp
  | "==" => .equal
  | "===" => .strictEqual
  | "!=" => .unequal
  | "!==" => .strictUnequal
  | "<" => .less
  | ">" => .greater
  | "<=" => .lessEqual
  | ">=" => .greaterEqual
  | symbol => .other symbol

/-- The operators that always yield a boolean. Membership tests (`in`, `instanceof`) are not
counted among them. -/
def isComparison : BinaryOp → Bool
  | other _ => false
  | _ => true

end BinaryOp

/-- Assignments; `||=`, `&&=` and `??=` hold the logical operator they apply. -/
inductive AssignOp
  | logical (op : LogicalOp)
  | other (symbol : String)
  deriving DecidableEq, Repr

namespace AssignOp

def ofSymbol : String → AssignOp
  | "&&=" => .logical .and
  | "||=" => .logical .or
  | "??=" => .logical .coalesce
  | symbol => .other symbol

end AssignOp

end JsxLint
