import MentionAlign.Data.Codec
import MentionAlign.Structured.Gold

/-!
# Gold documents as text

A gold document is written with raw records for its arguments, and read back by deciding the kind of
every record once the whole text makes sense.  The notation is a parameter.
-/

namespace MentionAlign

/-- Why a text does not hold a gold document. -/
inductive GoldReadError
  /-- The text breaks the notation, or its value has another shape. -/
  | fault (fault : Fault)
  /-- A record of unknown kind. -/
  | input (error : InputError)
deriving DecidableEq, Repr

namespace GoldDocument

/-- The text of a document. -/
def write? (codec : TextCodec) (doc : GoldDocument GoldMention) : Option String :=
  codec.encode? doc.toRaw

/-- Reads a document; any record of unknown kind refuses all of it. -/
def read (codec : TextCodec) (s : String) :
    Except GoldReadError (GoldDocument GoldMention) := do
  let raw ← (codec.decode s).mapError GoldReadError.fault
  (ofRaw raw).mapError GoldReadError.input

end GoldDocument

end MentionAlign
