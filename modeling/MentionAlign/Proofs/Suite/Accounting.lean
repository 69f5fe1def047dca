import MentionAlign.Data.Toml
import MentionAlign.Proofs.Fixture.Cases
import MentionAlign.Proofs.Suite.Loading
import MentionAlign.Proofs.Suite.Wording
import Mathlib.Data.List.Basic

/-!
# The accounts of a run over fixtures

A run counts responses in four numbers and shows failures in two lists.  `SuiteReport.Accounts` says
what the numbers and lists of a report have to do with the responses and failures that the report is
about.  It holds of a report without anything in it, of one failing check and of checks that passed,
and it carries over to two reports one behind the other; so it holds of the checks of one fixture
and of all fixtures (`Accounts.foldl_append`).

Whether a failure is listed is found out twice, by the scan that classifies it and by the scan that
fetches its entry.  The two agree on every ledger (`Ledger.classify_eq_regression_iff`), also where
a response is listed several times or in both sections.

How the files are read does not matter for any of this, so the notation of the files is a parameter
without a law.
-/

namespace MentionAlign

namespace Ledger

variable {ledger : Ledger} {fixture response : String}

theorem entry?_eq_or (ledger : Ledger) (fixture response : String) :
    ledger.entry? fixture response =
      (ledger.known.find? (LedgerEntry.names fixture response)).or
        (ledger.pending.find? (LedgerEntry.names fixture response)) :=
  List.find?_append

/-- What classifies a failure is which section has an entry to fetch. -/
theorem classify_eq_ite (ledger : Ledger) (fixture response : String) :
    ledger.classify fixture response =
      if (ledger.known.find? (LedgerEntry.names fixture response)).isSome then .known
      else if (ledger.pending.find? (LedgerEntry.names fixture response)).isSome then .pending
      else .regression := by
  simp only [classify, List.isSome_find?]

/-- A failure is a regression exactly when no entry names it. -/
theorem classify_eq_regression_iff :
    ledger.classify fixture response = .regression ↔ ledger.entry? fixture response = none := by
  rw [classify_eq_ite, entry?_eq_or]
  cases ledger.known.find? (LedgerEntry.names fixture response) with
  | some e => simp
  | none => cases ledger.pending.find? (LedgerEntry.names fixture response) <;> simp

/-- An entry that is fetched stands in the section that the failure is classed under, which is that
of pending failures only if no known failure has the name. -/
theorem section_of_entry? {entry : LedgerEntry} (h : ledger.entry? fixture response = some entry) :
    ledger.classify fixture response = .known ∧ entry ∈ ledger.known ∨
      ledger.classify fixture response = .pending ∧ entry ∈ ledger.pending ∧
        ∀ e ∈ ledger.known, ¬ e.names fixture response := by
  rw [entry?_eq_or] at h
  rw [classify_eq_ite]
  cases hknown : ledger.known.find? (LedgerEntry.names fixture response) with
  | some e =>
      obtain rfl : e = entry := by simpa [hknown] using h
      exact .inl ⟨rfl, List.mem_of_find?_eq_some hknown⟩
  | none =>
      have hpending : ledger.pending.find? (LedgerEntry.names fixture response) = some entry := by
        simpa [hknown] using h
      refine .inr ⟨?_, List.mem_of_find?_eq_some hpending, List.find?_eq_none.mp hknown⟩
      rw [hpending]
      rfl

end Ledger

/-- A failing check with the path of its fixture and the fixture. -/
structure Failure where
  path : String
  fixture : Fixture
  check : Check

namespace Failure

/-- The entry of a ledger that names the failure. -/
def entry? (ledger : Ledger) (failure : Failure) : Option LedgerEntry :=
  ledger.entry? failure.path failure.check.response

/-- The block that shows the failure as a regression. -/
def block (failure : Failure) : String :=
  Report.failure failure.path failure.check (failure.fixture.textOf failure.check.span)

/-- The line that shows the failure as an expected one. -/
def line (ledger : Ledger) (failure : Failure) : String :=
  Report.expectedFailure failure.path failure.check
    (ledger.classify failure.path failure.check.response) (failure.entry? ledger)

/-- A failure that no entry names is a regression, and its block says where it is and how the
response came out. -/
theorem block_of_entry?_eq_none {ledger : Ledger} {failure : Failure}
    (h : failure.entry? ledger = none) :
    ledger.classify failure.path failure.check.response = .regression ∧
      failure.block =
        "\nFAIL: " ++ failure.path ++ ":" ++ failure.check.response ++ "\n\n  response at "
          ++ failure.check.span.render
          ++ Report.quoted (failure.fixture.textOf failure.check.span) ++ "\n  "
          ++ failure.check.outcome.render ++ "\n  aligned: " ++ failure.check.alignment.render
          ++ Report.hinted failure.check.outcome ++ "\n" :=
  ⟨Ledger.classify_eq_regression_iff.mpr h, Report.failure_eq _ _ _⟩

/-- The line of a failure shows the entry that is fetched, with its notes, under the section in
which it stands. -/
theorem line_of_entry? {ledger : Ledger} {failure : Failure} {entry : LedgerEntry}
    (h : failure.entry? ledger = some entry) :
    entry.names failure.path failure.check.response ∧
      (entry ∈ ledger.known ∧
          ledger.classify failure.path failure.check.response = .known ∧
          failure.line ledger =
            "KNOWN: " ++ failure.path ++ ":" ++ failure.check.response ++ " "
              ++ failure.check.outcome.render ++ entry.bracketed ∨
        entry ∈ ledger.pending ∧
          (∀ e ∈ ledger.known, ¬ e.names failure.path failure.check.response) ∧
          ledger.classify failure.path failure.check.response = .pending ∧
          failure.line ledger =
            "PENDING: " ++ failure.path ++ ":" ++ failure.check.response ++ " "
              ++ failure.check.outcome.render ++ entry.bracketed) := by
  refine ⟨List.find?_some h, ?_⟩
  unfold line
  rw [h, Report.expectedFailure_eq]
  rcases Ledger.section_of_entry? h with ⟨hstate, hmem⟩ | ⟨hstate, hmem, hunknown⟩
  · refine .inl ⟨hmem, hstate, ?_⟩
    rw [hstate]
    rfl
  · refine .inr ⟨hmem, hunknown, hstate, ?_⟩
    rw [hstate]
    rfl

end Failure

namespace SuiteReport

variable {ledger : Ledger}

/-- The report is about so many responses, of which the given ones failed: those that the ledger
does not list have a block each, the others a line each. -/
structure Accounts (ledger : Ledger) (responses : Nat) (failures : List Failure)
    (report : SuiteReport) : Prop where
  total : report.totals.total = responses
  passed : report.totals.passed + failures.length = responses
  regressions : report.totals.regressions = report.regressions.length
  expectedFailures : report.totals.expectedFailures = report.expected.length
  blocks : report.regressions =
    (failures.filter fun failure => (failure.entry? ledger).isNone).map Failure.block
  lines : report.expected =
    (failures.filter fun failure => (failure.entry? ledger).isSome).map (Failure.line ledger)

/-- A report without anything in it is about nothing. -/
theorem accounts_empty (ledger : Ledger) : Accounts ledger 0 [] {} :=
  ⟨rfl, rfl, rfl, rfl, rfl, rfl⟩

/-- Accounts of two reports are accounts of both together. -/
theorem Accounts.append {m n : Nat} {failures others : List Failure} {a b : SuiteReport}
    (ha : Accounts ledger m failures a) (hb : Accounts ledger n others b) :
    Accounts ledger (m + n) (failures ++ others) (a.append b) where
  total := congrArg₂ (· + ·) ha.total hb.total
  passed := by
    have := ha.passed
    have := hb.passed
    simp only [SuiteReport.append, Totals.add, List.length_append]
    omega
  regressions := by
    simp only [SuiteReport.append, Totals.add, List.length_append, ha.regressions, hb.regressions]
  expectedFailures := by
    simp only [SuiteReport.append, Totals.add, List.length_append, ha.expectedFailures,
      hb.expectedFailures]
  blocks := by
    simp only [SuiteReport.append, List.filter_append, List.map_append, ha.blocks, hb.blocks]
  lines := by
    simp only [SuiteReport.append, List.filter_append, List.map_append, ha.lines, hb.lines]

/-- Every response passed, failed as expected or regressed. -/
theorem Accounts.total_eq_add {n : Nat} {failures : List Failure} {report : SuiteReport}
    (h : Accounts ledger n failures report) :
    report.totals.total =
      report.totals.passed + report.totals.expectedFailures + report.totals.regressions := by
  have hsplit := List.length_eq_length_filter_add (l := failures)
    fun failure => (failure.entry? ledger).isSome
  simp only [Option.not_isSome] at hsplit
  have htotal := h.total
  have hpassed := h.passed
  rw [h.regressions, h.expectedFailures, h.blocks, h.lines, List.length_map, List.length_map]
  omega

/-- A run ends well exactly when the ledger lists every failure. -/
theorem Accounts.exitCode_eq_zero_iff {n : Nat} {failures : List Failure} {report : SuiteReport}
    (h : Accounts ledger n failures report) :
    report.totals.exitCode = 0 ↔ ∀ failure ∈ failures, (failure.entry? ledger).isSome := by
  unfold Totals.exitCode
  rw [h.regressions, h.blocks, List.length_map]
  simp [Option.isSome_iff_ne_none]

/-- Records are beside the accounts. -/
theorem Accounts.withRecords {n : Nat} {failures : List Failure} {report : SuiteReport}
    (h : Accounts ledger n failures report) (records : List LogRecord) :
    Accounts ledger n failures { report with records } :=
  ⟨h.total, h.passed, h.regressions, h.expectedFailures, h.blocks, h.lines⟩

/-- **Accounts add up.**  Let each report of a list be an account of its part.  Put one behind the
other, they are an account of all parts. -/
theorem Accounts.foldl_append {α β : Type} {parts : α → List β} {failing : α → List Failure}
    {xs : List α} {reports : List SuiteReport}
    (h : List.Forall₂ (fun x report => Accounts ledger (parts x).length (failing x) report)
      xs reports) {n : Nat} {failures : List Failure} {before : SuiteReport}
    (hbefore : Accounts ledger n failures before) :
    Accounts ledger (n + (xs.flatMap parts).length) (failures ++ xs.flatMap failing)
      (reports.foldl SuiteReport.append before) := by
  induction h generalizing n failures before with
  | nil => simpa using hbefore
  | cons hfirst _ ih =>
      have hrest := ih (hbefore.append hfirst)
      rwa [List.flatMap_cons, List.flatMap_cons, List.length_append, ← Nat.add_assoc,
        ← List.append_assoc]

/-- One failing check is accounted for by one block or by one line. -/
theorem accounts_ofFailure (ledger : Ledger) (path : String) (f : Fixture) (check : Check) :
    Accounts ledger 1 [⟨path, f, check⟩] (ofFailure ledger path f check) := by
  cases hentry : ledger.entry? path check.response with
  | none =>
      have hstate := Ledger.classify_eq_regression_iff.mpr hentry
      constructor <;>
        simp [ofFailure, hstate, Totals.recordFailure, Failure.entry?, hentry, Failure.block]
  | some entry =>
      -- known and pending failures are counted alike
      rcases Ledger.section_of_entry? hentry with ⟨hstate, _⟩ | ⟨hstate, _, _⟩
      all_goals
        constructor <;>
          simp [ofFailure, hstate, Totals.recordFailure, Failure.entry?, hentry, Failure.line]

/-- Each check that passed counts once. -/
theorem foldl_recordPass {α : Type} (checks : List α) (t : Totals) :
    checks.foldl (fun t _ => t.recordPass) t =
      { t with total := t.total + checks.length, passed := t.passed + checks.length } := by
  induction checks generalizing t with
  | nil => rfl
  | cons check checks ih =>
      rw [List.foldl_cons, ih, List.length_cons]
      simp only [Totals.recordPass, Nat.add_comm, Nat.add_left_comm]

/-- Checks that passed are counted and not shown. -/
theorem accounts_passed {α : Type} (ledger : Ledger) (checks : List α) :
    Accounts ledger checks.length [] { totals := checks.foldl (fun t _ => t.recordPass) {} } := by
  rw [foldl_recordPass]
  constructor <;> simp

/-- The checks of a fixture are accounted for, whichever of them failed. -/
theorem accounts_ofChecks (ledger : Ledger) (path : String) (f : Fixture) (checks : List Check) :
    Accounts ledger checks.length
      ((checks.filter (!·.outcome.isPassed)).map (Failure.mk path f))
      (ofChecks ledger path f (Checks.ofList checks)) := by
  have hpassed := accounts_passed ledger (Checks.ofList checks).passed
  have hfailed : List.Forall₂ (fun check report => Accounts ledger [check].length
      [Failure.mk path f check] report) (Checks.ofList checks).failed
      ((Checks.ofList checks).failed.map (ofFailure ledger path f)) := by
    rw [List.forall₂_map_right_iff, List.forall₂_same]
    exact fun check _ => accounts_ofFailure ledger path f check
  have hlength := Checks.total_ofList checks
  have hall := (hpassed.foldl_append hfailed).withRecords
    (ofChecks ledger path f (Checks.ofList checks)).records
  rw [List.flatMap_singleton', ← List.map_eq_flatMap, List.nil_append] at hall
  rw [← Checks.failed_ofList, ← hlength]
  exact hall

/-- The records of reports stand in the order of the reports. -/
theorem records_foldl_append (reports : List SuiteReport) (before : SuiteReport) :
    (reports.foldl SuiteReport.append before).records =
      before.records ++ reports.flatMap SuiteReport.records := by
  induction reports generalizing before with
  | nil => simp
  | cons report reports ih =>
      rw [List.foldl_cons, ih, List.flatMap_cons, ← List.append_assoc]
      rfl

end SuiteReport

/-- A fixture at its path, with the checks of its responses in order. -/
structure FixtureRun where
  path : String
  fixture : Fixture
  checks : List Check

namespace FixtureRun

/-- The failing checks, in order. -/
def failures (r : FixtureRun) : List Failure :=
  (r.checks.filter (!·.outcome.isPassed)).map (Failure.mk r.path r.fixture)

/-- The counts that the summary of the fixture shows. -/
def totals (ledger : Ledger) (r : FixtureRun) : Totals :=
  (SuiteReport.ofChecks ledger r.path r.fixture (Checks.ofList r.checks)).totals

/-- The checks are those of a run of the fixture, one for each response and in their order. -/
structure Complete (r : FixtureRun) : Prop where
  run : ∃ records, r.fixture.run = .ok (Checks.ofList r.checks, records)
  responses : r.checks.map Check.response = r.fixture.cases.map Case.id

variable {ledger : Ledger}

theorem Complete.length_checks {r : FixtureRun} (h : r.Complete) :
    r.checks.length = r.fixture.cases.length := by
  simpa using congrArg List.length h.responses

/-- The totals of a fixture count its responses, and no more passes than these: what is left are its
failures. -/
theorem Complete.passed_le_total {r : FixtureRun} (h : r.Complete) :
    (r.totals ledger).passed ≤ (r.totals ledger).total ∧
      (r.totals ledger).total - (r.totals ledger).passed = r.failures.length ∧
      (r.totals ledger).total = r.fixture.cases.length := by
  have haccounts := SuiteReport.accounts_ofChecks ledger r.path r.fixture r.checks
  have hpassed := haccounts.passed
  have htotal := haccounts.total
  have hlength := h.length_checks
  unfold totals failures
  omega

/-- The report is that of the run: it accounts for the failures of the run and holds its summary. -/
structure ReportedBy (ledger : Ledger) (r : FixtureRun) (report : SuiteReport) : Prop where
  complete : r.Complete
  accounts : SuiteReport.Accounts ledger r.fixture.cases.length r.failures report
  summary : ⟨.info, Report.summaryLines r.path (r.totals ledger)⟩ ∈ report.records

/-- The report of a fixture is that of a run of all its responses. -/
theorem exists_reportedBy {path : String} {f : Fixture} {report : SuiteReport}
    (h : f.report ledger path = .ok report) :
    ∃ r : FixtureRun, (r.path, r.fixture) = (path, f) ∧ r.ReportedBy ledger report := by
  obtain ⟨⟨checks, records⟩, hread, hreport⟩ := bind_eq_ok_iff.mp h
  have hrun := mapError_eq_ok_iff.mp hread
  obtain ⟨all, rfl, hresponses⟩ := Fixture.exists_checks_of_run hrun
  obtain rfl := Except.ok.inj hreport
  have hcomplete : (FixtureRun.mk path f all).Complete := ⟨⟨records, hrun⟩, hresponses⟩
  refine ⟨⟨path, f, all⟩, rfl, hcomplete, ?_, ?_⟩
  · rw [← hcomplete.length_checks]
    exact (SuiteReport.accounts_ofChecks ledger path f all).withRecords _
  · simp [SuiteReport.ofChecks, totals]

/-- The reports of runs, one behind the other, hold the summary of each. -/
theorem summary_mem_of_forall₂ {runs : List FixtureRun} {reports : List SuiteReport}
    (h : List.Forall₂ (ReportedBy ledger) runs reports) :
    ∀ r ∈ runs, ⟨.info, Report.summaryLines r.path (r.totals ledger)⟩ ∈
      (reports.foldl SuiteReport.append {}).records := by
  simp only [SuiteReport.records_foldl_append, List.nil_append]
  induction h with
  | nil => exact fun r hr => absurd hr List.not_mem_nil
  | cons hfirst _ ih =>
      rw [List.forall_mem_cons, List.flatMap_cons]
      exact ⟨List.mem_append_left _ hfirst.summary, fun r hr => List.mem_append_right _ (ih r hr)⟩

/-- Reports of fixtures, one each, are those of runs of these fixtures. -/
theorem exists_forall₂_reportedBy {fixtures : List (String × Fixture)} {reports : List SuiteReport}
    (h : List.Forall₂ (fun (file : String × Fixture) report =>
      file.2.report ledger file.1 = .ok report) fixtures reports) :
    ∃ runs : List FixtureRun, runs.map (fun r => (r.path, r.fixture)) = fixtures ∧
      List.Forall₂ (ReportedBy ledger) runs reports := by
  induction h with
  | nil => exact ⟨[], rfl, .nil⟩
  | cons hfirst _ ih =>
      obtain ⟨r, hr, hreported⟩ := exists_reportedBy hfirst
      obtain ⟨runs, hruns, hall⟩ := ih
      exact ⟨r :: runs, List.cons_eq_cons.mpr ⟨hr, hruns⟩, .cons hreported hall⟩

end FixtureRun

namespace FileTree

variable {reader : TextReader} {t : FileTree}

/-- A run that succeeds has read the ledger and all fixtures, and has run all of these. -/
theorem exists_of_run {report : SuiteReport} (h : t.run reader = .ok report) :
    ∃ ledger fixtures reports,
      Ledger.load reader ledgerName (t.find? [Text.bytes ledgerName]) = .ok ledger ∧
      t.loadFixtures reader = .ok fixtures ∧
      List.Forall₂ (fun (file : String × Fixture) report =>
        file.2.report ledger file.1 = .ok report) fixtures reports ∧
      reports.foldl SuiteReport.append {} = report := by
  obtain ⟨ledger, hledger, hrest⟩ := bind_eq_ok_iff.mp h
  obtain ⟨fixtures, hfixtures, hrest⟩ := bind_eq_ok_iff.mp hrest
  obtain ⟨reports, hreports, hreport⟩ := map_eq_ok_iff.mp hrest
  exact ⟨ledger, fixtures, reports, hledger, hfixtures, mapM_eq_ok_iff_forall₂.mp hreports, hreport⟩

/-- What a run over a folder goes through: its ledger, and its fixtures in rising order of their
paths, each with the checks of all its responses. -/
structure RanAs (reader : TextReader) (t : FileTree) (ledger : Ledger)
    (runs : List FixtureRun) : Prop where
  /-- The ledger is what is read of the file with its name, and empty without that file. -/
  ledger : t.find? [Text.bytes ledgerName] = none ∧ ledger = {} ∨
    ∃ content, t.find? [Text.bytes ledgerName] = some (.file (some content)) ∧
      reader.decode content = .ok ledger
  /-- Each file of a fixture is run once, as the fixture that is read of it. -/
  fixtures : List.Forall₂ (fun file (r : FixtureRun) => file.1 = r.path ∧
    ∃ content, file.2 = some content ∧ reader.decode content = .ok r.fixture) t.fixtureFiles runs
  complete : ∀ r ∈ runs, r.Complete
  ordered : (runs.map FixtureRun.path).Pairwise (· ≤ ·)

/-- A run over a folder has gone through its fixtures, and its report is put together from
theirs. -/
theorem exists_ranAs {report : SuiteReport} (h : t.run reader = .ok report) :
    ∃ ledger runs reports, t.RanAs reader ledger runs ∧
      List.Forall₂ (FixtureRun.ReportedBy ledger) runs reports ∧
      reports.foldl SuiteReport.append {} = report := by
  obtain ⟨ledger, fixtures, reports, hledger, hfixtures, hreports, hreport⟩ := exists_of_run h
  obtain ⟨runs, rfl, hruns⟩ := FixtureRun.exists_forall₂_reportedBy hreports
  refine ⟨ledger, runs, reports, ⟨Ledger.load_eq_ok_iff.mp hledger, ?_, ?_, ?_⟩, hruns, hreport⟩
  · exact List.forall₂_map_right_iff.mp (loadFixtures_eq_ok_iff.mp hfixtures)
  · exact ((List.forall₂_and_left _ _).mp (hruns.imp fun _ _ hr => ⟨hr.complete, hr⟩)).1
  · have hpaths := pairwise_le_of_loadFixtures hfixtures
    rwa [List.map_map] at hpaths

/-- **Every failure is shown once, and none is lost.**  A run over a folder counts all responses of
all fixtures, each as passed, as expected to fail or as regressed.  Its two lists share the failures
out, in the order of the paths and then of the responses: those that no entry of the ledger names
have a block among the regressions, the others a line with the section, the place and the notes of
the entry that is fetched.  So a run ends well exactly when the ledger lists every failure, and the
summary of each fixture counts its failures by a subtraction that does not go below zero. -/
theorem run_accounts_for_failures {report : SuiteReport} (h : t.run reader = .ok report) :
    ∃ ledger runs, t.RanAs reader ledger runs ∧
      let failures := runs.flatMap FixtureRun.failures
      (report.totals.total = (runs.flatMap fun r => r.fixture.cases).length ∧
        report.totals.total =
          report.totals.passed + report.totals.expectedFailures + report.totals.regressions ∧
        report.regressions.length = report.totals.regressions ∧
        report.expected.length = report.totals.expectedFailures) ∧
      (report.regressions =
          (failures.filter fun failure => (failure.entry? ledger).isNone).map Failure.block ∧
        report.expected =
          (failures.filter fun failure => (failure.entry? ledger).isSome).map
            (Failure.line ledger)) ∧
      (∀ failure ∈ failures, failure.entry? ledger = none →
        ledger.classify failure.path failure.check.response = .regression ∧
        failure.block =
          "\nFAIL: " ++ failure.path ++ ":" ++ failure.check.response ++ "\n\n  response at "
            ++ failure.check.span.render
            ++ Report.quoted (failure.fixture.textOf failure.check.span) ++ "\n  "
            ++ failure.check.outcome.render ++ "\n  aligned: " ++ failure.check.alignment.render
            ++ Report.hinted failure.check.outcome ++ "\n") ∧
      (∀ failure ∈ failures, ∀ entry, failure.entry? ledger = some entry →
        entry.names failure.path failure.check.response ∧
        (entry ∈ ledger.known ∧
            ledger.classify failure.path failure.check.response = .known ∧
            failure.line ledger =
              "KNOWN: " ++ failure.path ++ ":" ++ failure.check.response ++ " "
                ++ failure.check.outcome.render ++ entry.bracketed ∨
          entry ∈ ledger.pending ∧
            (∀ e ∈ ledger.known, ¬ e.names failure.path failure.check.response) ∧
            ledger.classify failure.path failure.check.response = .pending ∧
            failure.line ledger =
              "PENDING: " ++ failure.path ++ ":" ++ failure.check.response ++ " "
                ++ failure.check.outcome.render ++ entry.bracketed)) ∧
      (report.totals.exitCode = 0 ↔ ∀ failure ∈ failures, (failure.entry? ledger).isSome) ∧
      ∀ r ∈ runs,
        let totals := r.totals ledger
        ⟨.info, "\n" ++ (if totals.regressions = 0 then "PASS" else "FAIL") ++ ": " ++ r.path
          ++ "\n  " ++ toString totals.passed ++ " passed, "
          ++ toString (totals.total - totals.passed) ++ " failed ("
          ++ toString totals.expectedFailures ++ " expected, " ++ toString totals.regressions
          ++ " regressions)"⟩ ∈ report.records ∧
        totals.passed ≤ totals.total ∧ totals.total - totals.passed = r.failures.length ∧
        totals.total = r.fixture.cases.length := by
  obtain ⟨ledger, runs, reports, hran, hruns, rfl⟩ := exists_ranAs h
  have hparts : List.Forall₂ (fun (r : FixtureRun) report =>
      SuiteReport.Accounts ledger r.fixture.cases.length r.failures report) runs reports :=
    hruns.imp fun _ _ hr => hr.accounts
  have haccounts := (SuiteReport.accounts_empty ledger).foldl_append hparts
  rw [Nat.zero_add, List.nil_append] at haccounts
  refine ⟨ledger, runs, hran, ?_, ⟨haccounts.blocks, haccounts.lines⟩, ?_, ?_, ?_, ?_⟩
  · exact ⟨haccounts.total, haccounts.total_eq_add, haccounts.regressions.symm,
      haccounts.expectedFailures.symm⟩
  · exact fun failure _ hentry => Failure.block_of_entry?_eq_none hentry
  · exact fun failure _ entry hentry => Failure.line_of_entry? hentry
  · exact haccounts.exitCode_eq_zero_iff
  · intro r hr
    have hsummary := FixtureRun.summary_mem_of_forall₂ hruns r hr
    rw [Report.summaryLines_eq] at hsummary
    exact ⟨hsummary, (hran.complete r hr).passed_le_total⟩

/-- Of three responses that fail alike, the ledger lists one as known, with two notes and once more
as pending, and one as pending with a note.  The third one is a regression. -/
theorem run_accounts_for_listed_and_unlisted :
    let response := fun id : String => "[[responses]]\nid=\"" ++ id ++ "\"\nevent_type=\"\"\n" ++
      "role=\"\"\ncas=\"0-2\"\nexpect=\"unmatched\"\nambiguous=[\"m\"]\n"
    let text := "document.id=\"\"\n" ++ response "1" ++ response "2" ++ response "3"
    let listed :=
      "[[known]]\nfixture=\"f.toml\"\nresponse=\"1\"\nreason=\"why\"\nadded=\"2026\"\n" ++
      "[[pending]]\nfixture=\"f.toml\"\nresponse=\"1\"\nreason=\"not this\"\n" ++
      "[[pending]]\nfixture=\"f.toml\"\nresponse=\"2\"\nissue=\"#7\"\n"
    let t : FileTree := .folder [
      (Text.bytes "f.toml", .file (some text)), (Text.bytes ledgerName, .file (some listed))]
    ∃ report ledger runs, t.run Toml.reader = .ok report ∧ t.RanAs Toml.reader ledger runs ∧
      report.totals = ⟨3, 0, 2, 1⟩ ∧
      report.expected = [
        "KNOWN: f.toml:1 expected ambiguous [m], found [] (why; added 2026)",
        "PENDING: f.toml:2 expected ambiguous [m], found [] (#7)"] ∧
      report.regressions = [
        "\nFAIL: f.toml:3\n\n  response at 0-2\n  expected ambiguous [m], found []\n" ++
          "  aligned: unmatched\n\n" ++
          "  hint: ambiguity candidates are listed in inventory order\n"] ∧
      ¬ ∀ failure ∈ runs.flatMap FixtureRun.failures, (failure.entry? ledger).isSome := by
  intro response text listed t
  have hshown : (t.run Toml.reader).toOption.map
      (fun report => (report.totals, report.expected, report.regressions)) =
        some (⟨3, 0, 2, 1⟩, [
          "KNOWN: f.toml:1 expected ambiguous [m], found [] (why; added 2026)",
          "PENDING: f.toml:2 expected ambiguous [m], found [] (#7)"], [
          "\nFAIL: f.toml:3\n\n  response at 0-2\n  expected ambiguous [m], found []\n" ++
            "  aligned: unmatched\n\n" ++
            "  hint: ambiguity candidates are listed in inventory order\n"]) := by
    decide +kernel
  obtain ⟨report, hrun, hreport⟩ := toOption_map_eq_some_iff.mp hshown
  obtain ⟨htotals, hlists⟩ := Prod.mk.inj hreport
  obtain ⟨hexpected, hregressions⟩ := Prod.mk.inj hlists
  obtain ⟨ledger, runs, hran, _, _, _, _, hexit, _⟩ := run_accounts_for_failures hrun
  rw [htotals] at hexit
  exact ⟨report, ledger, runs, hrun, hran, htotals, hexpected, hregressions,
    fun hall => absurd (hexit.mpr hall) (by decide)⟩

end FileTree

end MentionAlign
