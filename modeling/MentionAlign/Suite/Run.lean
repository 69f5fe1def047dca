import MentionAlign.Data.Codec
import MentionAlign.Fixture.Run
import MentionAlign.Structured.Fixture
import MentionAlign.Structured.Ledger
import MentionAlign.Suite.Folder
import MentionAlign.Suite.Report

/-!
# Running a folder of fixtures

The ledger is read first, then every fixture, and only then are the fixtures run, in the order of
their paths.  A failure that the ledger expects is one line; any other one is a regression and gets
a block of its own.  The notation of the files is a parameter.
-/

namespace MentionAlign

/-- Why a folder of fixtures cannot be run. -/
inductive SuiteError
  /-- A file that cannot be read; a fixture whose text is at fault tells the fault. -/
  | load (path : String) (fault : Option Fault)
  | fixture (error : FixtureError)
deriving DecidableEq, Repr

/-- What a run over fixtures gives. -/
structure SuiteReport where
  totals : Totals := {}
  /-- The block of each regression. -/
  regressions : List String := []
  /-- The line of each failure that the ledger expects. -/
  expected : List String := []
  records : List LogRecord := []
deriving DecidableEq, Repr

namespace SuiteReport

/-- Two reports, one behind the other. -/
def append (a b : SuiteReport) : SuiteReport where
  totals := a.totals.add b.totals
  regressions := a.regressions ++ b.regressions
  expected := a.expected ++ b.expected
  records := a.records ++ b.records

/-- The report of a failed check. -/
def ofFailure (ledger : Ledger) (name : String) (f : Fixture) (check : Check) : SuiteReport :=
  let state := ledger.classify name check.response
  let totals := Totals.recordFailure {} state
  if state = .regression then
    { totals, regressions := [Report.failure name check (f.textOf check.span)] }
  else
    let line := Report.expectedFailure name check state (ledger.entry? name check.response)
    { totals, expected := [line], records := [⟨.info, line⟩] }

/-- The report of the checks of one fixture. -/
def ofChecks (ledger : Ledger) (name : String) (f : Fixture) (checks : Checks) : SuiteReport :=
  let passed : SuiteReport :=
    { totals := checks.passed.foldl (fun t _ => t.recordPass) {} }
  let report := (checks.failed.map (ofFailure ledger name f)).foldl append passed
  { report with
    records := report.records ++ [⟨.info, Report.summaryLines name report.totals⟩] }

end SuiteReport

namespace Ledger

/-- Reads the ledger at a path from what stands there; without a file it is empty. -/
def load (reader : TextReader) (path : String) : Option FileTree → Except SuiteError Ledger
  | none => .ok {}
  | some (.file (some text)) => (reader.decode text).mapError fun _ => .load path none
  | some (.file none) | some (.folder _) => .error (.load path none)

end Ledger

namespace Fixture

/-- Reads the fixture in a file. -/
def load (reader : TextReader) (path : String) : Option String → Except SuiteError Fixture
  | some text => (reader.decode text).mapError fun fault => .load path (some fault)
  | none => .error (.load path none)

/-- Runs a fixture and reports its checks against a ledger. -/
def report (ledger : Ledger) (name : String) (f : Fixture) : Except SuiteError SuiteReport := do
  let (checks, records) ← f.run.mapError SuiteError.fixture
  let report := SuiteReport.ofChecks ledger name f checks
  return { report with records := records ++ report.records }

end Fixture

namespace FileTree

/-- Reads every fixture below a folder, in rising order of the paths. -/
def loadFixtures (reader : TextReader) (t : FileTree) :
    Except SuiteError (List (String × Fixture)) :=
  t.fixtureFiles.mapM fun (path, text) => return (path, ← Fixture.load reader path text)

/-- Runs every fixture below a folder against the ledger in it. -/
def run (reader : TextReader) (t : FileTree) : Except SuiteError SuiteReport := do
  let ledger ← Ledger.load reader ledgerName (t.find? [Text.bytes ledgerName])
  let fixtures ← t.loadFixtures reader
  let reports ← fixtures.mapM fun (name, f) => f.report ledger name
  return reports.foldl SuiteReport.append {}

end FileTree

end MentionAlign
