import MentionAlign.Fixture.Basic
import MentionAlign.Fixture.Check

/-!
# Running fixtures

Every case of a fixture is aligned against the fixture's document and checked.  A case that expects
a mention which is not there, or whose response cannot be read, refuses the whole fixture.
-/

namespace MentionAlign

namespace Fixture

/-- The aligner for the document of a fixture. -/
def aligner (f : Fixture) (doc : AnnotatedDocument) : DocumentAligner :=
  DocumentAligner.ofConfig f.config doc.gold.inventory doc.oracle f.roleMap

/-- Refuses a case that expects a mention which is not there. -/
def confirmExpected (inventory : Inventory) (c : Case) : Except FixtureError Unit :=
  match c.expectation with
  | .mention id =>
    if (inventory.get? id).isSome then .ok () else .error (.unknownMention c.id id)
  | .unmatched => .ok ()

/-- Aligns and checks one case, along with the records of it. -/
def runCase (aligner : DocumentAligner) (docId : String) (c : Case) :
    Except FixtureError (Check × List LogRecord) := do
  confirmExpected aligner.inventory c
  let response ← (c.response docId).mapError FixtureError.input
  let (alignment, records) := aligner.alignLogged response
  return (
    { response := c.id, span := response.argument.span, alignment, outcome := c.check alignment },
    records)

/-- Aligns and checks every case, in order. -/
def run (f : Fixture) : Except FixtureError (Checks × List LogRecord) := do
  let doc ← f.annotated
  let results ← f.cases.mapM (runCase (f.aligner doc) doc.gold.docId)
  return (Checks.ofList (results.map Prod.fst), results.flatMap Prod.snd)

end Fixture

end MentionAlign
