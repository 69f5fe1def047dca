import MentionAlign.Gold
import MentionAlign.Structured.Mention

/-!
# Gold documents as structured data

Documents of either argument type have the same record form around their arguments.
-/

namespace MentionAlign

variable {α : Type}

namespace EventMention

/-- The record of an event mention. -/
def toDatum (write : α → Datum) (m : EventMention α) : Datum :=
  .record none [
    ("id", .text m.id), ("event_type", .text m.eventType),
    ("trigger", .ofOption Span.toDatum m.trigger), ("arguments", .ofList write m.arguments)]

/-- Reads an event mention. -/
def ofDatum (read : Decoder α) : Decoder (EventMention α) :=
  Datum.toRecord "GoldEventMention"
    (EventMention.mk
      <$> .required "id" Datum.toText
      <*> .required "event_type" Datum.toText
      <*> .defaulted "trigger" (Datum.toOption Span.ofDatum) none
      <*> .defaulted "arguments" (Datum.toList read) [])

end EventMention

namespace Event

/-- The record of an event. -/
def toDatum (write : α → Datum) (e : Event α) : Datum :=
  .record none [("id", .text e.id), ("mentions", .ofList (EventMention.toDatum write) e.mentions)]

/-- Reads an event. -/
def ofDatum (read : Decoder α) : Decoder (Event α) :=
  Datum.toRecord "GoldEvent"
    (Event.mk
      <$> .required "id" Datum.toText
      <*> .defaulted "mentions" (Datum.toList (EventMention.ofDatum read)) [])

end Event

namespace GoldDocument

/-- The record of a document. -/
def toDatum (write : α → Datum) (doc : GoldDocument α) : Datum :=
  .record none [("doc_id", .text doc.docId), ("events", .ofList (Event.toDatum write) doc.events)]

/-- Reads a document. -/
def ofDatum (read : Decoder α) : Decoder (GoldDocument α) :=
  Datum.toRecord "GoldDocument"
    (GoldDocument.mk
      <$> .required "doc_id" Datum.toText
      <*> .defaulted "events" (Datum.toList (Event.ofDatum read)) [])

instance [Structured α] : Structured (GoldDocument α) where
  toDatum := toDatum Structured.toDatum
  ofDatum := ofDatum Structured.ofDatum

end GoldDocument

end MentionAlign
