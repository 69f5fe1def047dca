import MentionAlign.Suite.Report
import Mathlib.Data.List.Basic

/-!
# What reports say

A report is laid out line by line.  Here its texts are written out from end to end: the block of a
failed check, the line of a failure that the ledger expects, and the summary of a fixture.  A
statement about a report can then say which paths, names, notes and counts a reader finds in it.
-/

namespace MentionAlign

/-- The notes of an entry in brackets, and nothing for an entry without notes. -/
def LedgerEntry.bracketed (e : LedgerEntry) : String :=
  match e.reason.toList ++ (e.added.map ("added " ++ ·)).toList ++ e.issue.toList with
  | [] => ""
  | notes => " (" ++ "; ".intercalate notes ++ ")"

/-- The bracket holds the notes of the entry. -/
theorem LedgerEntry.bracketed_eq (e : LedgerEntry) :
    e.bracketed = match e.notes? with
      | some notes => " (" ++ notes ++ ")"
      | none => "" := by
  obtain ⟨fixture, response, reason, added, issue⟩ := e
  cases reason <;> cases added <;> cases issue <;> rfl

namespace Report

/-- The text under a response in quotation marks, where the document has one. -/
def quoted : Option String → String
  | some text => ": \"" ++ text ++ "\""
  | none => ""

/-- The hint for an outcome, two lines below what stands before it. -/
def hinted (outcome : Outcome) : String :=
  match hint? outcome with
  | some hint => "\n\n  hint: " ++ hint
  | none => ""

/-- A place is shown with the text there in quotation marks. -/
theorem location_eq (span : Span) (text : Option String) :
    location span text = "  response at " ++ span.render ++ quoted text := by
  cases text with
  | none => exact String.append_empty.symm
  | some text =>
      calc location span (some text)
          = "  response at " ++ span.render ++ ": \"" ++ text ++ "\"" := rfl
        _ = "  response at " ++ span.render ++ quoted (some text) := by
            simp only [quoted, String.append_assoc]

/-- The block of a failed check says where the response is and how it came out. -/
theorem failure_eq (fixture : String) (check : Check) (text : Option String) :
    failure fixture check text =
      "\nFAIL: " ++ fixture ++ ":" ++ check.response ++ "\n\n  response at " ++ check.span.render
        ++ quoted text ++ "\n  " ++ check.outcome.render ++ "\n  aligned: "
        ++ check.alignment.render ++ hinted check.outcome ++ "\n" := by
  -- the layout puts a line feed in front of every line but the first, which is empty
  have hfail : "\nFAIL: " = "\n" ++ "FAIL: " := rfl
  have hlocation : "\n\n  response at " = "\n" ++ ("\n" ++ "  response at ") := rfl
  have houtcome : "\n  " = "\n" ++ "  " := rfl
  have haligned : "\n  aligned: " = "\n" ++ "  aligned: " := rfl
  have hhint : "\n\n  hint: " = "\n" ++ ("\n" ++ "  hint: ") := rfl
  rw [failure, location_eq, hinted, hfail, hlocation, houtcome, haligned]
  cases hint? check.outcome with
  | none =>
      simp only [-String.reduceAppend, Option.toList_none, List.flatMap_nil, List.append_nil,
        String.intercalate_cons_cons, String.intercalate_singleton, String.empty_append,
        String.append_empty, String.append_assoc]
  | some hint =>
      simp only [-String.reduceAppend, hhint, Option.toList_some, List.flatMap_singleton,
        List.cons_append, List.nil_append, String.intercalate_cons_cons,
        String.intercalate_singleton, String.empty_append, String.append_assoc]

/-- The line of an expected failure says where the response is, how it came out and what its entry
notes. -/
theorem expectedFailure_eq (fixture : String) (check : Check) (state : FailureState)
    (entry : LedgerEntry) :
    expectedFailure fixture check state (some entry) =
      stateWord state ++ ": " ++ fixture ++ ":" ++ check.response ++ " " ++ check.outcome.render
        ++ entry.bracketed := by
  rw [entry.bracketed_eq]
  rfl

/-- The summary of a fixture says whether anything regressed, and counts. -/
theorem summaryLines_eq (fixture : String) (t : Totals) :
    summaryLines fixture t =
      "\n" ++ (if t.regressions = 0 then "PASS" else "FAIL") ++ ": " ++ fixture ++ "\n  "
        ++ toString t.passed ++ " passed, " ++ toString (t.total - t.passed) ++ " failed ("
        ++ toString t.expectedFailures ++ " expected, " ++ toString t.regressions
        ++ " regressions)" := by
  have hstatus : (if t.success then "PASS" else "FAIL") =
      if t.regressions = 0 then "PASS" else "FAIL" := by
    simp only [Totals.success, decide_eq_true_eq]
  rw [← hstatus]
  rfl

end Report

end MentionAlign
