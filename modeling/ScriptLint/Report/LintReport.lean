import ScriptLint.Report.Diagnostic

/-!
The outcome of a lint run: its diagnostics in order of place, with counts and groups.
-/
namespace ScriptLint

structure LintReport where
  diagnostics : List Diagnostic
  deriving DecidableEq, Repr

namespace LintReport

def count (report : LintReport) (severity : Severity) : Nat :=
  report.diagnostics.countP fun d => d.severity = severity

def errorCount (report : LintReport) : Nat := report.count .error

def warningCount (report : LintReport) : Nat := report.count .warning

def hasErrors (report : LintReport) : Bool := report.diagnostics.any fun d => d.severity = .error

def hasWarnings (report : LintReport) : Bool :=
  report.diagnostics.any fun d => d.severity = .warning

/-- How many diagnostics offer a fix. -/
def fixableCount (report : LintReport) : Nat :=
  report.diagnostics.countP fun d => !d.fixes.isEmpty

/-- The diagnostics of each rule, the rules in order of first appearance. -/
def byRule (report : LintReport) : List (String × List Diagnostic) :=
  (report.diagnostics.map (·.rule)).eraseDups.map fun rule =>
    (rule, report.diagnostics.filter fun d => d.rule = rule)

end LintReport

end ScriptLint
