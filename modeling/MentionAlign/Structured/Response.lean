import MentionAlign.Response.Basic
import MentionAlign.Structured.Span

/-!
# Responses as structured data

A realis value is written as its label, an anchored text and a response as records.
-/

namespace MentionAlign

namespace Realis

/-- The labels with their values. -/
def variants : List (String × Realis) := all.map fun r => (r.label, r)

instance : Structured Realis where
  toDatum r := .text r.label
  ofDatum := Datum.toVariant variants

end Realis

namespace AnchoredText

/-- The record of an anchored text. -/
def toDatum (t : AnchoredText) : Datum :=
  .record none [("text", .text t.text), ("span", t.span.toDatum)]

/-- Reads an anchored text. -/
def ofDatum : Decoder AnchoredText :=
  Datum.toRecord "AnchoredText"
    (AnchoredText.mk <$> .required "text" Datum.toText <*> .required "span" Span.ofDatum)

instance : Structured AnchoredText where
  toDatum := toDatum
  ofDatum := ofDatum

end AnchoredText

namespace Response

/-- The record of a response. -/
def toDatum (r : Response) : Datum :=
  .record none [
    ("doc_id", .text r.docId), ("event_type", .text r.eventType), ("role", .text r.role),
    ("canonical_argument", r.argument.toDatum), ("base_filler", r.baseFiller.toDatum),
    ("argument_justifications", .ofList Span.toDatum r.argumentJustifications),
    ("predicate_justifications", .ofList Span.toDatum r.predicateJustifications),
    ("realis", .text r.realis.label)]

/-- Reads the fields of a response. -/
def reader : FieldReader Datum Response :=
  Response.mk
    <$> .required "doc_id" Datum.toText
    <*> .required "event_type" Datum.toText
    <*> .required "role" Datum.toText
    <*> .required "canonical_argument" AnchoredText.ofDatum
    <*> .required "base_filler" Span.ofDatum
    <*> .defaulted "argument_justifications" (Datum.toList Span.ofDatum) []
    <*> .defaulted "predicate_justifications" (Datum.toList Span.ofDatum) []
    <*> .required "realis" (Datum.toVariant Realis.variants)

/-- Reads a response. -/
def ofDatum : Decoder Response :=
  Datum.toRecord "Response" reader

instance : Structured Response where
  toDatum := toDatum
  ofDatum := ofDatum

end Response

end MentionAlign
