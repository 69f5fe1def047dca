import MentionAlign.Span.Text

/-!
# Responses

A response is an event argument that a system extracted: where it was found, which role it plays
and whether the event is asserted to have happened.
-/

namespace MentionAlign

/-- Whether an event is asserted to have actually happened. -/
inductive Realis
  | actual
  | generic
  | other
deriving DecidableEq, Repr

namespace Realis

/-- The label of a realis value. -/
def label : Realis → String
  | .actual => "Actual"
  | .generic => "Generic"
  | .other => "Other"

/-- All realis values, in the order in which messages list them. -/
def all : List Realis := [.actual, .generic, .other]

/-- Reads a label. -/
def parse (input : String) : Except InputError Realis :=
  match all.find? (·.label = input) with
  | some r => .ok r
  | none => .error (.unknownRealis input)

/-- Reading the label of a realis value gives the value back. -/
theorem parse_label (r : Realis) : parse r.label = .ok r := by
  cases r <;> rfl

end Realis

/-- A text together with the span it was taken from. -/
structure AnchoredText where
  text : String
  span : Span
deriving BEq, Repr

/-- An extracted event argument.  The base filler is the argument's own span unless given, and the
realis is actual unless given. -/
structure Response where
  docId : String
  eventType : String
  role : String
  argument : AnchoredText
  baseFiller : Span := argument.span
  argumentJustifications : List Span := []
  predicateJustifications : List Span := []
  realis : Realis := .actual
deriving BEq, Repr

namespace Response

/-- The identifier that diagnostics attribute to a response.  Justifications are left out: responses
that differ only in them compete for the same gold argument. -/
def uniqueId (r : Response) : String :=
  "/".intercalate [r.docId, r.eventType, r.role, r.argument.span.render, r.baseFiller.render,
    r.realis.label]

/-- The one-line form of a response. -/
def render (r : Response) : String :=
  " ".intercalate [r.docId, r.eventType, r.role,
    Text.quoted r.argument.text ++ "@" ++ r.argument.span.render,
    "bf=" ++ r.baseFiller.render, "aj=" ++ SpanSet.render r.argumentJustifications,
    "pj=" ++ SpanSet.render r.predicateJustifications, r.realis.label]

end Response

end MentionAlign
