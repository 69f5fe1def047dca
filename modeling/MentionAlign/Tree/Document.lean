import MentionAlign.Head
import MentionAlign.Tree.Bracketed

/-!
# Parsed documents

A parsed document holds one tree per sentence.  It serves as a head oracle: the first sentence that
contains a span, the constituent in it that covers exactly the span, and the terminal reached from
there by following head children.  Where a step fails there is no head.
-/

namespace MentionAlign

/-- The parse of one document. -/
structure ParsedDocument where
  docId : String
  /-- The root of each sentence. -/
  sentences : List Node := []
deriving BEq, Repr

namespace ParsedDocument

/-- Reads trees over a text one after the other; the words of each follow those of the last. -/
def readTrees (text : List Char) (cursor : Nat) : List String → Except TreeError (List Node)
  | [] => .ok []
  | tree :: trees => do
    let (root, next) ← Bracketed.parse tree text cursor
    let roots ← readTrees text next trees
    return root :: roots

/-- The document of bracketed trees over a text. -/
def ofBracketed (docId text : String) (trees : List String) : Except TreeError ParsedDocument :=
  (readTrees text.toList 0 trees).map fun sentences => { docId, sentences }

/-- The first sentence whose span encloses the given one. -/
def sentenceOf? (doc : ParsedDocument) (span : Span) : Option Node :=
  doc.sentences.find? fun root => root.span.encloses span

/-- The token that heads the constituent with exactly the offsets of `span`. -/
def headToken? (doc : ParsedDocument) (span : Span) : Option Token := do
  let root ← doc.sentenceOf? span
  let node ← root.find? span
  let terminal ← node.terminalHead?
  terminal.token

/-- The span of the head token, carrying its text. -/
def headOf (doc : ParsedDocument) : HeadOracle := fun span =>
  (doc.headToken? span).map fun token => { token.span with text := some token.text }

end ParsedDocument

end MentionAlign
