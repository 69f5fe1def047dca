import MentionAlign.Data.Codec
import MentionAlign.Data.Ron.Lexer
import MentionAlign.Data.Ron.Reader
import MentionAlign.Data.Ron.Writer

/-!
# Object notation

Typed values as texts of the object notation.  A fault inside the text and a fault of the value are
told apart by their order: the decoder of the value meets whichever comes first.
-/

namespace MentionAlign.Ron

/-- The notation nests up to this depth. -/
def nestingLimit : Nat := 128

/-- What a text holds. -/
def read (s : String) : Content := readTokens (scan s.toList)

/-- Writes structured data, unless it nests too deep. -/
def writeDatum? (d : Datum) : Option String :=
  if height d ≤ nestingLimit then some (String.ofList (write 0 d)) else none

/-- The wording of a fault of a text: only an inverted span has one. -/
def message? (f : Fault) : Option String :=
  match f.cause with
  | .invalidSpan .. => f.message?
  | _ => none

/-- Object notation. -/
def codec : TextCodec where
  read decode s := do
    let content := read s
    let a ← decode (.ron content.implicitSome nestingLimit) content.root
    if content.complete then return a else throw .mismatch
  write? := writeDatum?

end MentionAlign.Ron
