import MentionAlign.Data.Structured
import MentionAlign.Span.Basic

/-!
# Spans as structured data

A span is a record of its two offsets, with its text where it carries one.  Reading refuses a record
whose start lies after its end.
-/

namespace MentionAlign

namespace Span

/-- The record of a span. -/
def toDatum (s : Span) : Datum :=
  .record none ([("start", .natural s.start), ("end", .natural s.stop)]
    ++ s.text.toList.map fun text => ("text", .present (.text text)))

/-- Reads the fields of a span. -/
def reader : FieldReader Datum (Nat × Nat × Option String) :=
  (fun start stop text => (start, stop, text))
    <$> .required "start" Datum.toNatural
    <*> .required "end" Datum.toNatural
    <*> .defaulted "text" (Datum.toOption Datum.toText) none

/-- Accepts offsets in order. -/
def validate (fields : Nat × Nat × Option String) : Except Fault Span :=
  if h : fields.1 ≤ fields.2.1 then
    .ok { start := fields.1, stop := fields.2.1, text := fields.2.2, start_le_stop := h }
  else .error { cause := .invalidSpan fields.1 fields.2.1 }

/-- Reads a span. -/
def ofDatum : Decoder Span := fun format d =>
  Datum.toRecord "SpanRepr" reader format d >>= validate

instance : Structured Span where
  toDatum := toDatum
  ofDatum := ofDatum

end Span

end MentionAlign
