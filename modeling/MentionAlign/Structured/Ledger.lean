import MentionAlign.Data.Structured
import MentionAlign.Suite.Ledger

/-!
# Ledgers as structured data

A ledger is a record of two lists of entries; entries may hold more than their fields.
-/

namespace MentionAlign

namespace LedgerEntry

/-- The record of an entry. -/
def toDatum (e : LedgerEntry) : Datum :=
  .record none [
    ("fixture", .text e.fixture), ("response", .text e.response),
    ("reason", .ofOption .text e.reason), ("added", .ofOption .text e.added),
    ("issue", .ofOption .text e.issue)]

/-- Reads an entry. -/
def ofDatum : Decoder LedgerEntry :=
  Datum.toRecord "LedgerEntry"
    (LedgerEntry.mk
      <$> .required "fixture" Datum.toText
      <*> .required "response" Datum.toText
      <*> .defaulted "reason" (Datum.toOption Datum.toText) none
      <*> .defaulted "added" (Datum.toOption Datum.toText) none
      <*> .defaulted "issue" (Datum.toOption Datum.toText) none)

instance : Structured LedgerEntry where
  toDatum := toDatum
  ofDatum := ofDatum

end LedgerEntry

namespace Ledger

/-- The record of a ledger. -/
def toDatum (ledger : Ledger) : Datum :=
  .record none [
    ("known", .ofList LedgerEntry.toDatum ledger.known),
    ("pending", .ofList LedgerEntry.toDatum ledger.pending)]

/-- Reads a ledger. -/
def ofDatum : Decoder Ledger :=
  Datum.toRecord "Ledger"
    (Ledger.mk
      <$> .defaulted "known" (Datum.toList LedgerEntry.ofDatum) []
      <*> .defaulted "pending" (Datum.toList LedgerEntry.ofDatum) [])

instance : Structured Ledger where
  toDatum := toDatum
  ofDatum := ofDatum

end Ledger

end MentionAlign
