import MentionAlign.Suite.Ledger

/-!
# Totals

What a run over fixtures counts: responses that passed, failures that the ledger expects, and
regressions.
-/

namespace MentionAlign

/-- The counts of a run. -/
structure Totals where
  total : Nat := 0
  passed : Nat := 0
  /-- Failures that are known or pending. -/
  expectedFailures : Nat := 0
  regressions : Nat := 0
deriving DecidableEq, Repr

namespace Totals

/-- The counts with one more response that passed. -/
def recordPass (t : Totals) : Totals := { t with total := t.total + 1, passed := t.passed + 1 }

/-- The counts with one more failure. -/
def recordFailure (t : Totals) : FailureState → Totals
  | .known | .pending =>
    { t with total := t.total + 1, expectedFailures := t.expectedFailures + 1 }
  | .regression => { t with total := t.total + 1, regressions := t.regressions + 1 }

/-- The counts of two runs together. -/
def add (t u : Totals) : Totals where
  total := t.total + u.total
  passed := t.passed + u.passed
  expectedFailures := t.expectedFailures + u.expectedFailures
  regressions := t.regressions + u.regressions

/-- Whether nothing regressed. -/
def success (t : Totals) : Bool := t.regressions = 0

/-- The exit code of a run: zero when nothing regressed, one otherwise. -/
def exitCode (t : Totals) : Nat := if 0 < t.regressions then 1 else 0

end Totals

end MentionAlign
