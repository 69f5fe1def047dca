import MentionAlign.Span.Basic
import MentionAlign.Text.Blank
import MentionAlign.Text.Split

/-!
# The text form of spans and span sets

A span is written `start-end`.  A span set is written as its spans with commas between them, and
`NIL` when it is empty; reading one drops blank parts and later spans with offsets seen before.
-/

namespace MentionAlign

namespace Span

/-- The text form of a span. -/
def render (s : Span) : String := toString s.start ++ "-" ++ toString s.stop

/-- The text form of a span followed by its text, where it carries one. -/
def describe (s : Span) : String :=
  match s.text with
  | some text => s.render ++ " " ++ Text.quoted text
  | none => s.render

/-- Reads `start-end`; blanks may surround the whole and either number. -/
def parse (input : String) : Except InputError Span :=
  match (Text.splitAt '-' (Text.trim input.toList)).map Text.trim with
  | [first, last] =>
    match Text.readOffset first, Text.readOffset last with
    | some start, some stop => ofOffsets start stop
    | _, _ => .error (.malformedSpan input)
  | _ => .error (.malformedSpan input)

end Span

namespace SpanSet

/-- The text form of a list of spans. -/
def render (spans : List Span) : String :=
  if spans.isEmpty then "NIL" else ",".intercalate (spans.map Span.render)

/-- The parts of a span set that are not blank. -/
def parts (cs : List Char) : List (List Char) :=
  ((Text.splitAt ',' cs).map Text.trim).filter (!·.isEmpty)

/-- Reads a span set; of spans with equal offsets the first is kept. -/
def parse (input : String) : Except InputError (List Span) :=
  let cs := Text.trim input.toList
  if cs = ['N', 'I', 'L'] then .ok []
  else match parts cs with
    | [] => .error .emptySpanSet
    | ps => (ps.mapM fun p => Span.parse (String.ofList p)).map List.eraseDups

end SpanSet

end MentionAlign
