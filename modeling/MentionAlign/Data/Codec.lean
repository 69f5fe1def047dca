import MentionAlign.Data.Structured

/-!
# Notations

A notation is known by what it makes of texts.  What reads or writes texts takes the notation as a
parameter and says only which typed values the texts are about.
-/

namespace MentionAlign

/-- A notation that can be read: what the decoder of a typed value makes of a text. -/
structure TextReader where
  read {α : Type} : Decoder α → String → Except Fault α

/-- A notation that can also be written; there may be structured data that it has no text for. -/
structure TextCodec extends TextReader where
  write? : Datum → Option String

variable {α : Type} [Structured α]

/-- Reads a typed value from a text. -/
def TextReader.decode (reader : TextReader) (s : String) : Except Fault α :=
  reader.read Structured.ofDatum s

/-- The text of a typed value, where there is one. -/
def TextCodec.encode? (codec : TextCodec) (a : α) : Option String :=
  codec.write? (Structured.toDatum a)

end MentionAlign
