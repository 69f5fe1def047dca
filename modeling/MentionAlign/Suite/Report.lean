import MentionAlign.Fixture.Check
import MentionAlign.Span.Text
import MentionAlign.Suite.Totals

/-!
# Reports

The texts that a run over fixtures shows: a block for each regression, a line for each failure that
the ledger expects, and a summary for each fixture.
-/

namespace MentionAlign.Report

/-- What a failure usually means. -/
def hint? : Outcome → Option String
  | .wrongStrategy expected actual =>
    some (if expected < actual then
      "a stricter rule did not fire; check heads and the role table"
    else "a stricter rule fired first; the response may match more than intended")
  | .wrongAmbiguity .. => some "ambiguity candidates are listed in inventory order"
  | .passed | .wrongMention .. => none

/-- Where a response stands, with the text there when the document has one. -/
def location (span : Span) : Option String → String
  | some text => "  response at " ++ span.render ++ ": \"" ++ text ++ "\""
  | none => "  response at " ++ span.render

/-- The block of a failed check. -/
def failure (fixture : String) (check : Check) (text : Option String) : String :=
  let lines := [
    "", "FAIL: " ++ fixture ++ ":" ++ check.response, "", location check.span text,
    "  " ++ check.outcome.render, "  aligned: " ++ check.alignment.render]
  let hints := (hint? check.outcome).toList.flatMap fun hint => ["", "  hint: " ++ hint]
  "\n".intercalate (lines ++ hints) ++ "\n"

/-- The word that a line about a failure begins with. -/
def stateWord : FailureState → String
  | .known => "KNOWN"
  | .pending => "PENDING"
  | .regression => "FAIL"

/-- The line of a failure that the ledger expects, with the notes of its entry. -/
def expectedFailure (fixture : String) (check : Check) (state : FailureState)
    (entry : Option LedgerEntry) : String :=
  stateWord state ++ ": " ++ fixture ++ ":" ++ check.response ++ " " ++ check.outcome.render
    ++ match entry.bind LedgerEntry.notes? with
      | some notes => " (" ++ notes ++ ")"
      | none => ""

/-- The summary of a fixture without the last line end: its name, then its counts. -/
def summaryLines (fixture : String) (t : Totals) : String :=
  "\n" ++ (if t.success then "PASS" else "FAIL") ++ ": " ++ fixture ++ "\n  "
    ++ toString t.passed ++ " passed, " ++ toString (t.total - t.passed) ++ " failed ("
    ++ toString t.expectedFailures ++ " expected, " ++ toString t.regressions ++ " regressions)"

/-- The summary of a fixture. -/
def summary (fixture : String) (t : Totals) : String := summaryLines fixture t ++ "\n"

end MentionAlign.Report
