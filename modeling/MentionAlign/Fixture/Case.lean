import MentionAlign.Alignment
import MentionAlign.Response.Basic

/-!
# Cases

A case is a response as a fixture writes it down, together with the alignment that it should get.
Its spans and its realis are texts until the case is run, so that a fixture with a bad span can be
read and fails only when it is used.
-/

namespace MentionAlign

/-- What a response should align to. -/
inductive Expectation
  | mention (id : MentionId)
  | unmatched
deriving DecidableEq, Repr

/-- A response to align and the outcome that it should get. -/
structure Case where
  /-- The name of the response within its fixture. -/
  id : String
  eventType : String
  role : String
  /-- The span of the canonical argument. -/
  argument : String
  argumentText : String := ""
  baseFiller : Option String := none
  /-- The span set of the argument justifications. -/
  justifications : Option String := none
  realis : Option String := none
  /-- The identifier of a gold mention, or `unmatched`. -/
  expect : String
  /-- The index of the strategy that should match. -/
  strategy : Option Nat := none
  /-- The candidates that should be ambiguous, in inventory order; none of them for no ambiguity. -/
  ambiguous : Option (List String) := none
deriving DecidableEq, Repr

namespace Case

/-- What stands for a response that should not be aligned. -/
def unmatchedName : String := "unmatched"

/-- What the response should align to. -/
def expectation (c : Case) : Expectation :=
  if c.expect = unmatchedName then .unmatched else .mention ⟨c.expect⟩

/-- The span of the canonical argument. -/
def span (c : Case) : Except InputError Span := Span.parse c.argument

/-- The response that the case describes, in a document with the given identifier. -/
def response (c : Case) (docId : String) : Except InputError Response := do
  let span ← c.span
  let baseFiller ← c.baseFiller.mapM Span.parse
  let justifications ← c.justifications.mapM SpanSet.parse
  let realis ← c.realis.mapM Realis.parse
  return {
    docId, eventType := c.eventType, role := c.role
    argument := { text := c.argumentText, span }
    baseFiller := baseFiller.getD span
    argumentJustifications := justifications.getD []
    realis := realis.getD .actual }

end Case

end MentionAlign
