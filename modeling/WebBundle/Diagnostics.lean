/-!
# Diagnostics of a build session

Warnings are kept in the order they were given until they are taken.  A warning
given under a key is recorded only for the first use of the key in the session,
also when the earlier one was taken since.
-/

namespace WebBundle

/-- An error or warning: its own text and the contexts around it, innermost
first. -/
structure Report where
  message : String
  context : List String := []
  deriving DecidableEq, Repr, Inhabited

namespace Report

/-- The outermost text of a report. -/
def headline (report : Report) : String :=
  report.context.getLast?.getD report.message

/-- All texts of a report, outermost first. -/
def chain (report : Report) : List String :=
  (report.message :: report.context).reverse

/-- All texts of a report on one line. -/
def text (report : Report) : String :=
  String.intercalate ": " report.chain

/-- Puts a context around a report. -/
def within (report : Report) (context : String) : Report :=
  { report with context := report.context ++ [context] }

end Report

/-- The warnings of a session and the keys used so far. -/
structure Diagnostics where
  warnings : List Report := []
  keys : List String := []
  deriving DecidableEq, Repr, Inhabited

namespace Diagnostics

/-- Adds a warning. -/
def warn (diagnostics : Diagnostics) (warning : Report) : Diagnostics :=
  { diagnostics with warnings := diagnostics.warnings ++ [warning] }

/-- Records a key and says whether it is new. -/
def insertKey (diagnostics : Diagnostics) (key : String) : Bool × Diagnostics :=
  if key ∈ diagnostics.keys then (false, diagnostics)
  else (true, { diagnostics with keys := key :: diagnostics.keys })

/-- Adds a warning unless its key was used before, and says whether it did. -/
def warnOnce (diagnostics : Diagnostics) (key : String) (warning : Report) :
    Bool × Diagnostics :=
  let (inserted, diagnostics) := diagnostics.insertKey key
  (inserted, if inserted then diagnostics.warn warning else diagnostics)

/-- Takes all warnings out. -/
def take (diagnostics : Diagnostics) : List Report × Diagnostics :=
  (diagnostics.warnings, { diagnostics with warnings := [] })

end Diagnostics

/-- The text of a batch of reports, one a line. -/
def Report.batchText (reports : List Report) : String :=
  String.intercalate "\n" (reports.map Report.text)

end WebBundle
