/-!
# The ledger of expected failures

A ledger lists responses that are known to fail, and responses whose mending is pending.  A failure
that no entry names is a regression.
-/

namespace MentionAlign

/-- One expected failure. -/
structure LedgerEntry where
  /-- The path of the fixture below the folder of fixtures. -/
  fixture : String
  /-- The name of the response within its fixture. -/
  response : String
  reason : Option String := none
  /-- The date on which the entry was added. -/
  added : Option String := none
  issue : Option String := none
deriving DecidableEq, Repr

namespace LedgerEntry

/-- Whether the entry names a response of a fixture. -/
def names (fixture response : String) (e : LedgerEntry) : Bool :=
  e.fixture == fixture && e.response == response

/-- The notes of an entry in one line, when it has any. -/
def notes? (e : LedgerEntry) : Option String :=
  match [e.reason, e.added.map ("added " ++ ·), e.issue].filterMap id with
  | [] => none
  | notes => some ("; ".intercalate notes)

end LedgerEntry

/-- What is known about a failure. -/
inductive FailureState
  | known
  | pending
  /-- The response should have passed. -/
  | regression
deriving DecidableEq, Repr

/-- The expected failures of a folder of fixtures. -/
structure Ledger where
  known : List LedgerEntry := []
  pending : List LedgerEntry := []
deriving DecidableEq, Repr

namespace Ledger

/-- What is known about the failure of a response; a known failure may be pending too. -/
def classify (ledger : Ledger) (fixture response : String) : FailureState :=
  if ledger.known.any (LedgerEntry.names fixture response) then .known
  else if ledger.pending.any (LedgerEntry.names fixture response) then .pending
  else .regression

/-- The first entry that names a response, known failures before pending ones. -/
def entry? (ledger : Ledger) (fixture response : String) : Option LedgerEntry :=
  (ledger.known ++ ledger.pending).find? (LedgerEntry.names fixture response)

/-- The number of entries. -/
def size (ledger : Ledger) : Nat := ledger.known.length + ledger.pending.length

end Ledger

end MentionAlign
