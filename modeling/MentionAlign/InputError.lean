import MentionAlign.Text.Quoted

/-!
# Faults of the input data

Alignment itself never fails.  Errors arise only while outside data is turned into spans, span
sets, mentions and responses.
-/

namespace MentionAlign

/-- Why outside data is refused. -/
inductive InputError
  /-- A span whose start lies after its end. -/
  | invalidSpan (start stop : Nat)
  /-- A text that is not of the form `start-end`. -/
  | malformedSpan (input : String)
  /-- A span set without members that is not written `NIL`. -/
  | emptySpanSet
  /-- A mention that is neither an entity nor a filler. -/
  | unknownMentionKind (mention kind : String)
  /-- A realis label outside the known three. -/
  | unknownRealis (input : String)
deriving DecidableEq, Repr

/-- The wording of an input error. -/
def InputError.message : InputError → String
  | .invalidSpan start stop =>
    "invalid span: start " ++ toString start ++ " is after end " ++ toString stop
  | .malformedSpan input => "malformed span " ++ Text.quoted input ++ ": expected `start-end`"
  | .emptySpanSet => "empty span sets must be written as NIL"
  | .unknownMentionKind mention kind =>
    "unknown gold mention kind " ++ Text.quoted kind ++ " for mention " ++ mention
  | .unknownRealis input => "unknown realis " ++ Text.quoted input

end MentionAlign
