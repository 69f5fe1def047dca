import MentionAlign.Cascade.Aligner
import MentionAlign.Data.Structured

/-!
# Set-ups and alignments as structured data

A role table is a record with one entry for each gold role that has a counterpart.  The set-up of an
aligner falls back on the standard one field by field.  An alignment is written as the name of its
variant, with the aligned mention behind it when there is one.
-/

namespace MentionAlign

namespace RoleTable

/-- The record of a role table. -/
def toDatum (table : RoleTable) : Datum :=
  .record none (table.entries.map fun entry => (entry.1, .text entry.2))

/-- Reads a role table. -/
def ofDatum : Decoder RoleTable := fun format => Datum.under fun d =>
  match d.entries? with
  | some (none, entries) => do
    let pairs ← entries.mapM fun entry =>
      (Datum.toText format entry.2).map fun role => (entry.1, role)
    return RoleTable.ofList pairs
  | _ => .error .mismatch

instance : Structured RoleTable where
  toDatum := toDatum
  ofDatum := ofDatum

end RoleTable

namespace SpanKind

/-- The long name of a span kind. -/
def name : SpanKind → String
  | .canonicalArgument => "canonical_argument"
  | .baseFiller => "base_filler"

/-- The long names with their span kinds. -/
def variants : List (String × SpanKind) :=
  [canonicalArgument, baseFiller].map fun kind => (kind.name, kind)

end SpanKind

namespace Config

/-- The record of a set-up. -/
def toDatum (config : Config) : Datum :=
  .record none [
    ("relax_with_heads", .boolean config.relaxWithHeads),
    ("response_views", .ofList (fun kind => .text kind.name) config.views)]

/-- Reads the fields of a set-up. -/
def reader : FieldReader Datum Config :=
  Config.mk
    <$> .defaulted "relax_with_heads" Datum.toBoolean standard.relaxWithHeads
    <*> .defaulted "response_views" (Datum.toList (Datum.toVariant SpanKind.variants))
      standard.views

/-- Reads a set-up. -/
def ofDatum : Decoder Config :=
  Datum.toRecord "Config" reader

instance : Structured Config where
  toDatum := toDatum
  ofDatum := ofDatum

end Config

namespace Candidate

/-- The record of a candidate. -/
def toDatum (c : Candidate) : Datum :=
  .record none [("mention", .text c.mention.name), ("scoring_id", .text c.scoringId.name)]

/-- Reads a candidate. -/
def ofDatum : Decoder Candidate :=
  Datum.toRecord "Candidate"
    ((fun mention scoringId => ⟨⟨mention⟩, ⟨scoringId⟩⟩)
      <$> .required "mention" Datum.toText <*> .required "scoring_id" Datum.toText)

end Candidate

namespace Ambiguity

/-- The record of an ambiguity. -/
def toDatum (a : Ambiguity) : Datum :=
  .record none [
    ("response_id", .text a.responseId), ("candidates", .ofList Candidate.toDatum a.candidates)]

/-- Reads an ambiguity. -/
def ofDatum : Decoder Ambiguity :=
  Datum.toRecord "Ambiguity"
    (Ambiguity.mk
      <$> .required "response_id" Datum.toText
      <*> .required "candidates" (Datum.toList Candidate.ofDatum))

end Ambiguity

namespace AlignedMention

/-- The record of an aligned mention. -/
def toDatum (a : AlignedMention) : Datum :=
  .record none [
    ("mention", .text a.mention.name), ("scoring_id", .text a.scoringId.name),
    ("strategy", .natural a.strategy), ("ambiguity", .ofOption Ambiguity.toDatum a.ambiguity)]

/-- Reads an aligned mention. -/
def ofDatum : Decoder AlignedMention :=
  Datum.toRecord "AlignedMention"
    ((fun mention scoringId strategy ambiguity => ⟨⟨mention⟩, ⟨scoringId⟩, strategy, ambiguity⟩)
      <$> .required "mention" Datum.toText
      <*> .required "scoring_id" Datum.toText
      <*> .required "strategy" Datum.toNatural
      <*> .optional "ambiguity" (Datum.toOption Ambiguity.ofDatum))

end AlignedMention

namespace Alignment

/-- The structured form of an alignment. -/
def toDatum : Alignment → Datum
  | matched a => .record none [("Matched", a.toDatum)]
  | unmatched => .text "Unmatched"

/-- The readers of what stands beside the names of the variants. -/
def payloadReaders : List (String × Decoder Alignment) := [
  ("Matched", fun format d => (AlignedMention.ofDatum format d).map matched),
  ("Unmatched", fun format d => (Datum.toNothing format d).map fun _ => unmatched)]

/-- Reads an alignment. -/
def ofDatum : Decoder Alignment := fun format => Datum.under fun
  | .text "Unmatched" => .ok unmatched
  | .text name => Datum.findVariant payloadReaders name >>= fun _ => .error .mismatch
  | .record none [(name, payload)] => do
    let read ← Datum.findVariant payloadReaders name
    read format payload
  | _ => .error .mismatch

instance : Structured Alignment where
  toDatum := toDatum
  ofDatum := ofDatum

end Alignment

end MentionAlign
