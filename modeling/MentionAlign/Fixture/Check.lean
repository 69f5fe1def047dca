import MentionAlign.Fixture.Case

/-!
# Checks

A check compares an alignment with what its case expects: the mention first, then the strategy, then
the ambiguous candidates.  The first difference is the outcome.
-/

namespace MentionAlign

/-- The outcome of a check. -/
inductive Outcome
  | passed
  | wrongMention (expected actual : String)
  | wrongStrategy (expected actual : Nat)
  | wrongAmbiguity (expected actual : List String)
deriving DecidableEq, Repr

namespace Outcome

/-- Whether nothing differs. -/
def isPassed (o : Outcome) : Bool := o = .passed

/-- The wording of an outcome. -/
def render : Outcome → String
  | .passed => "passed"
  | .wrongMention expected actual => "expected `" ++ expected ++ "`, aligned to `" ++ actual ++ "`"
  | .wrongStrategy expected actual =>
    "expected strategy #" ++ toString expected ++ ", won by #" ++ toString actual
  | .wrongAmbiguity expected actual =>
    "expected ambiguous [" ++ ", ".intercalate expected ++ "], found ["
      ++ ", ".intercalate actual ++ "]"

end Outcome

namespace Alignment

/-- The aligned mention by name; `unmatched` without one. -/
def mentionName (a : Alignment) : String :=
  match a.mentionId? with
  | some id => id.name
  | none => Case.unmatchedName

/-- The ambiguous candidates by name; none of them without ambiguity. -/
def candidateNames (a : Alignment) : List String :=
  match a.ambiguity? with
  | some ambiguity => ambiguity.mentionIds.map MentionId.name
  | none => []

end Alignment

/-- Whether an alignment is what an expectation asks for. -/
def Expectation.holds (a : Alignment) : Expectation → Bool
  | .mention id => a.mentionId? = some id
  | .unmatched => !a.isMatched

namespace Case

/-- How the aligned mention differs from the expected one. -/
def mentionDifference (c : Case) (a : Alignment) : Option Outcome :=
  if c.expectation.holds a then none else some (.wrongMention c.expect a.mentionName)

/-- How the strategy differs from the expected one, when there are both. -/
def strategyDifference (c : Case) (a : Alignment) : Option Outcome :=
  match c.strategy, a.strategy? with
  | some expected, some actual =>
    if expected = actual then none else some (.wrongStrategy expected actual)
  | _, _ => none

/-- How the ambiguous candidates differ from the expected ones, when those are given. -/
def ambiguityDifference (c : Case) (a : Alignment) : Option Outcome :=
  match c.ambiguous with
  | some expected =>
    if expected = a.candidateNames then none else some (.wrongAmbiguity expected a.candidateNames)
  | none => none

/-- Compares an alignment with what the case expects; the first difference counts. -/
def check (c : Case) (a : Alignment) : Outcome :=
  (((c.mentionDifference a).or (c.strategyDifference a)).or (c.ambiguityDifference a)).getD .passed

end Case

/-- A checked response. -/
structure Check where
  /-- The name of the response within its fixture. -/
  response : String
  /-- The span of the canonical argument. -/
  span : Span
  alignment : Alignment
  outcome : Outcome
deriving BEq, Repr

/-- The checks of one fixture, those that passed apart from the others. -/
structure Checks where
  passed : List Check := []
  failed : List Check := []
deriving BEq, Repr

namespace Checks

/-- The checks with one more, behind those that ended like it. -/
def add (checks : Checks) (check : Check) : Checks :=
  if check.outcome.isPassed then { checks with passed := checks.passed ++ [check] }
  else { checks with failed := checks.failed ++ [check] }

/-- The checks of a list, each in its place. -/
def ofList (checks : List Check) : Checks := checks.foldl add {}

/-- Adding checks one by one puts each behind those that ended like it. -/
theorem foldl_add (checks : List Check) (before : Checks) :
    checks.foldl add before = {
      passed := before.passed ++ checks.filter (·.outcome.isPassed)
      failed := before.failed ++ checks.filter (!·.outcome.isPassed) } := by
  induction checks generalizing before with
  | nil => simp
  | cons check rest ih =>
    rw [List.foldl_cons, ih, add]
    by_cases h : check.outcome.isPassed = true
    · simp [h]
    · simp [h]

/-- The checks that passed, in the order of the list. -/
@[simp] theorem passed_ofList (checks : List Check) :
    (ofList checks).passed = checks.filter (·.outcome.isPassed) := by
  rw [ofList, foldl_add]
  simp

/-- The checks that failed, in the order of the list. -/
@[simp] theorem failed_ofList (checks : List Check) :
    (ofList checks).failed = checks.filter (!·.outcome.isPassed) := by
  rw [ofList, foldl_add]
  simp

/-- The number of checks. -/
def total (checks : Checks) : Nat := checks.passed.length + checks.failed.length

/-- Every check of a list is counted once. -/
theorem total_ofList (checks : List Check) : (ofList checks).total = checks.length := by
  rw [total, passed_ofList, failed_ofList]
  induction checks with
  | nil => rfl
  | cons check rest ih =>
    by_cases h : check.outcome.isPassed = true
    · simp only [List.filter_cons, h, Bool.not_true, if_true, Bool.false_eq_true, if_false,
        List.length_cons]
      omega
    · simp only [List.filter_cons, h, Bool.not_false, if_true, Bool.false_eq_true, if_false,
        List.length_cons]
      omega

/-- Whether no check failed. -/
def allPassed (checks : Checks) : Bool := checks.failed.isEmpty

end Checks

end MentionAlign
