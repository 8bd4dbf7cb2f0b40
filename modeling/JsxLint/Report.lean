import JsxLint.Diagnostic.Basic

/-! The diagnostics of one run and the questions asked of them. -/
namespace JsxLint

/-- All diagnostics of a run, in the order of discovery. -/
structure Report where
  diagnostics : List Diagnostic
  deriving DecidableEq, Repr

namespace Report

def hasErrors (r : Report) : Bool :=
  r.diagnostics.any (·.severity = .error)

/-- Anything at all was reported, errors included. -/
def hasWarnings (r : Report) : Bool :=
  !r.diagnostics.isEmpty

def errorCount (r : Report) : Nat :=
  r.diagnostics.countP (·.severity = .error)

def warningCount (r : Report) : Nat :=
  r.diagnostics.countP (·.severity = .warning)

def ofRule (rule : String) (r : Report) : List Diagnostic :=
  r.diagnostics.filter (·.rule = rule)

def fixes (r : Report) : List Fix :=
  r.diagnostics.flatMap (·.fixes)

/-- The source with every fix made that can be. -/
def applyFixes (source : String) (r : Report) : String :=
  Fix.apply source r.fixes

end Report

end JsxLint
