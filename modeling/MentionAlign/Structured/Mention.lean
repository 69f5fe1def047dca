import MentionAlign.Mention.Inventory
import MentionAlign.Structured.Span

/-!
# Mentions as structured data

A gold mention is a record that names its kind among its fields.  The kind is read first; the other
fields are then those of the kind.  A raw record keeps its kind as a text.
-/

namespace MentionAlign

namespace GoldMention

/-- The record of a mention. -/
def toDatum : GoldMention → Datum
  | .entity m => .record none [
      ("kind", .text "entity"), ("id", .text m.id.name), ("entity_id", .text m.entity),
      ("extent", m.extent.toDatum), ("head", .ofOption Span.toDatum m.head), ("role", .text m.role)]
  | .filler m => .record none [
      ("kind", .text "filler"), ("id", .text m.id.name), ("extent", m.extent.toDatum),
      ("role", .text m.role)]

/-- Reads the fields of an entity mention. -/
def entityReader : FieldReader Datum GoldMention :=
  (fun id entity extent head role => .entity { id := ⟨id⟩, entity, extent, head, role })
    <$> .required "id" Datum.toText
    <*> .required "entity_id" Datum.toText
    <*> .required "extent" Span.ofDatum
    <*> .defaulted "head" (Datum.toOption Span.ofDatum) none
    <*> .required "role" Datum.toText

/-- Reads the fields of a filler. -/
def fillerReader : FieldReader Datum GoldMention :=
  (fun id extent role => .filler { id := ⟨id⟩, extent, role })
    <$> .required "id" Datum.toText
    <*> .required "extent" Span.ofDatum
    <*> .required "role" Datum.toText

/-- The readers of the kinds. -/
def kindReaders : List (String × FieldReader Datum GoldMention) :=
  [("entity", entityReader), ("filler", fillerReader)]

/-- Reads the fields of the kind that a datum names. -/
def ofKind (format : Format) (kind fields : Datum) : Except Fault GoldMention := do
  let name ← Datum.toText format kind
  let reader ← Datum.findVariant kindReaders name
  Datum.toRecord "GoldMention" reader format fields

/-- Reads a mention: the kind, then the fields of that kind.  A list that stands for a mention
begins with the kind. -/
def ofDatum : Decoder GoldMention := fun format => Datum.under fun
  | .record none entries =>
    match entries.lookup "kind" with
    | none => .error { cause := .missingField "kind" }
    | some kind => ofKind format kind (.record none (entries.filter (·.1 != "kind")))
  | .list [] => .error { cause := .missingField "kind" }
  | .list (kind :: items) => ofKind format kind (.list items)
  | _ => .error .mismatch

instance : Structured GoldMention where
  toDatum := toDatum
  ofDatum := ofDatum

end GoldMention

namespace RawMention

/-- The record of a raw mention. -/
def toDatum (m : RawMention) : Datum :=
  .record none [
    ("id", .text m.id), ("kind", .text m.kind), ("entity", .ofOption .text m.entity),
    ("extent", m.extent.toDatum), ("head", .ofOption Span.toDatum m.head), ("role", .text m.role)]

/-- Reads the fields of a raw mention. -/
def reader : FieldReader Datum RawMention :=
  RawMention.mk
    <$> .required "id" Datum.toText
    <*> .required "kind" Datum.toText
    <*> .defaulted "entity" (Datum.toOption Datum.toText) none
    <*> .required "extent" Span.ofDatum
    <*> .defaulted "head" (Datum.toOption Span.ofDatum) none
    <*> .required "role" Datum.toText

/-- Reads a raw mention. -/
def ofDatum : Decoder RawMention :=
  Datum.toRecord "RawMention" reader

instance : Structured RawMention where
  toDatum := toDatum
  ofDatum := ofDatum

end RawMention

namespace Inventory

/-- The record of an inventory. -/
def toDatum (inventory : Inventory) : Datum :=
  .record none [("mentions", .ofList GoldMention.toDatum inventory.mentions)]

/-- Reads an inventory. -/
def ofDatum : Decoder Inventory :=
  Datum.toRecord "Inventory"
    (Inventory.mk <$> .required "mentions" (Datum.toList GoldMention.ofDatum))

instance : Structured Inventory where
  toDatum := toDatum
  ofDatum := ofDatum

end Inventory

end MentionAlign
