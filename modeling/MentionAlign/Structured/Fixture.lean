import MentionAlign.Fixture.Basic
import MentionAlign.Structured.Cascade

/-!
# Fixtures as structured data

The records of a fixture hold nothing beyond their fields, save for the set-up of the aligner.
-/

namespace MentionAlign

namespace FixtureDocument

/-- Reads the document of a fixture. -/
def ofDatum : Decoder FixtureDocument :=
  Datum.toStrictRecord "FixtureDocument"
    (FixtureDocument.mk
      <$> .required "id" Datum.toText
      <*> .defaulted "text" Datum.toText ""
      <*> .defaulted "trees" (Datum.toList Datum.toText) [])

/-- The record of the document of a fixture. -/
def toDatum (d : FixtureDocument) : Datum :=
  .record none [("id", .text d.id), ("text", .text d.text), ("trees", .ofList .text d.trees)]

end FixtureDocument

namespace FixtureArgument

/-- Reads an argument. -/
def ofDatum : Decoder FixtureArgument :=
  Datum.toStrictRecord "FixtureArgument"
    (FixtureArgument.mk
      <$> .required "id" Datum.toText
      <*> .required "kind" Datum.toText
      <*> .defaulted "entity" (Datum.toOption Datum.toText) none
      <*> .required "extent" Datum.toText
      <*> .defaulted "head" (Datum.toOption Datum.toText) none
      <*> .required "role" Datum.toText)

/-- The record of an argument. -/
def toDatum (a : FixtureArgument) : Datum :=
  .record none [
    ("id", .text a.id), ("kind", .text a.kind), ("entity", .ofOption .text a.entity),
    ("extent", .text a.extent), ("head", .ofOption .text a.head), ("role", .text a.role)]

end FixtureArgument

namespace FixtureMention

/-- Reads an event mention. -/
def ofDatum : Decoder FixtureMention :=
  Datum.toStrictRecord "FixtureMention"
    (FixtureMention.mk
      <$> .required "id" Datum.toText
      <*> .required "event_type" Datum.toText
      <*> .defaulted "trigger" (Datum.toOption Datum.toText) none
      <*> .defaulted "arguments" (Datum.toList FixtureArgument.ofDatum) [])

/-- The record of an event mention. -/
def toDatum (m : FixtureMention) : Datum :=
  .record none [
    ("id", .text m.id), ("event_type", .text m.eventType),
    ("trigger", .ofOption .text m.trigger),
    ("arguments", .ofList FixtureArgument.toDatum m.arguments)]

end FixtureMention

namespace FixtureEvent

/-- Reads an event. -/
def ofDatum : Decoder FixtureEvent :=
  Datum.toStrictRecord "FixtureEvent"
    (FixtureEvent.mk
      <$> .required "id" Datum.toText
      <*> .defaulted "mentions" (Datum.toList FixtureMention.ofDatum) [])

/-- The record of an event. -/
def toDatum (e : FixtureEvent) : Datum :=
  .record none [("id", .text e.id), ("mentions", .ofList FixtureMention.toDatum e.mentions)]

end FixtureEvent

namespace Case

/-- Reads a case. -/
def ofDatum : Decoder Case :=
  Datum.toStrictRecord "Case"
    (Case.mk
      <$> .required "id" Datum.toText
      <*> .required "event_type" Datum.toText
      <*> .required "role" Datum.toText
      <*> .required "cas" Datum.toText
      <*> .defaulted "cas_text" Datum.toText ""
      <*> .defaulted "base_filler" (Datum.toOption Datum.toText) none
      <*> .defaulted "justifications" (Datum.toOption Datum.toText) none
      <*> .defaulted "realis" (Datum.toOption Datum.toText) none
      <*> .required "expect" Datum.toText
      <*> .defaulted "strategy" (Datum.toOption Datum.toNatural) none
      <*> .defaulted "ambiguous" (Datum.toOption (Datum.toList Datum.toText)) none)

/-- The record of a case. -/
def toDatum (c : Case) : Datum :=
  .record none [
    ("id", .text c.id), ("event_type", .text c.eventType), ("role", .text c.role),
    ("cas", .text c.argument), ("cas_text", .text c.argumentText),
    ("base_filler", .ofOption .text c.baseFiller),
    ("justifications", .ofOption .text c.justifications), ("realis", .ofOption .text c.realis),
    ("expect", .text c.expect), ("strategy", .ofOption .natural c.strategy),
    ("ambiguous", .ofOption (.ofList .text) c.ambiguous)]

instance : Structured Case where
  toDatum := toDatum
  ofDatum := ofDatum

end Case

namespace Fixture

/-- Reads a fixture. -/
def ofDatum : Decoder Fixture :=
  Datum.toStrictRecord "Fixture"
    (Fixture.mk
      <$> .defaulted "title" (Datum.toOption Datum.toText) none
      <*> .required "document" FixtureDocument.ofDatum
      <*> .defaulted "config" Config.ofDatum Config.standard
      <*> .defaulted "roles" (Datum.toOption RoleTable.ofDatum) none
      <*> .defaulted "events" (Datum.toList FixtureEvent.ofDatum) []
      <*> .defaulted "responses" (Datum.toList Case.ofDatum) [])

/-- The record of a fixture. -/
def toDatum (f : Fixture) : Datum :=
  .record none [
    ("title", .ofOption .text f.title), ("document", f.document.toDatum),
    ("config", f.config.toDatum), ("roles", .ofOption RoleTable.toDatum f.roles),
    ("events", .ofList FixtureEvent.toDatum f.events),
    ("responses", .ofList Case.toDatum f.cases)]

instance : Structured Fixture where
  toDatum := toDatum
  ofDatum := ofDatum

end Fixture

end MentionAlign
