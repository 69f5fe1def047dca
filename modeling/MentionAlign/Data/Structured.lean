import MentionAlign.Data.Fields
import MentionAlign.Data.Json

/-!
# Types with a structured form

A type with a structured form can be written as a `Datum` and read back from one, whatever notation
the datum came from.
-/

namespace MentionAlign

/-- How the values of a type are written as structured data and read back. -/
class Structured (α : Type) where
  toDatum : α → Datum
  ofDatum : Decoder α

namespace Json

variable {α : Type} [Structured α]

/-- The JSON value of a typed value. -/
def encode (a : α) : Json := ofDatum (Structured.toDatum a)

/-- Reads a typed value from a JSON value. -/
def decode (j : Json) : Except Fault α := Structured.ofDatum .json j.toDatum

end Json

end MentionAlign
