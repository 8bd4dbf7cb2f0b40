/-! The dialects that a source file can be written in. -/
namespace JsxLint

/-- A dialect, by the usual file extension. -/
inductive Dialect
  | jsx
  | tsx
  | ts
  | mjs
  | cjs
  | dts
  deriving DecidableEq, Repr

namespace Dialect

def ofName? : String → Option Dialect
  | "jsx" => some jsx
  | "tsx" => some tsx
  | "ts" => some ts
  | "mjs" => some mjs
  | "cjs" => some cjs
  | "dts" => some dts
  | _ => none

def isTyped : Dialect → Bool
  | tsx | ts | dts => true
  | jsx | mjs | cjs => false

end Dialect

end JsxLint
