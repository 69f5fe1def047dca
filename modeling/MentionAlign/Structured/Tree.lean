import MentionAlign.Structured.Span
import MentionAlign.Tree.Document

/-!
# Parses as structured data

A node is a record whose children are nodes again.  Nothing is checked beyond the spans, so any
shape of tree comes back as it was written.
-/

namespace MentionAlign

namespace Token

/-- The record of a token. -/
def toDatum (t : Token) : Datum := .record none [("text", .text t.text), ("span", t.span.toDatum)]

/-- Reads a token. -/
def ofDatum : Decoder Token :=
  Datum.toRecord "Token"
    (Token.mk <$> .required "text" Datum.toText <*> .required "span" Span.ofDatum)

end Token

namespace Node

mutual

/-- The record of a node. -/
def toDatum : Node → Datum
  | ⟨label, span, children, headChild, token⟩ => .record none [
      ("label", .text label), ("span", span.toDatum), ("children", .list (toData children)),
      ("head_child", .ofOption .natural headChild), ("token", .ofOption Token.toDatum token)]

/-- The records of nodes. -/
def toData : List Node → List Datum
  | [] => []
  | n :: ns => n.toDatum :: toData ns

end

/-- An entry of a node's record: its datum, and the nodes that it holds if it is the list of
children. -/
abbrev Entry := Datum × Except Fault (List Node)

/-- Reads the fields of a node whose children have been read. -/
def reader : FieldReader Entry Node :=
  Node.mk
    <$> .required "label" (fun format e => Datum.toText format e.1)
    <*> .required "span" (fun format e => Span.ofDatum format e.1)
    <*> .defaulted "children" (fun _ e => e.2) []
    <*> .defaulted "head_child" (fun format e => Datum.toOption Datum.toNatural format e.1) none
    <*> .defaulted "token" (fun format e => Datum.toOption Token.ofDatum format e.1) none

/-- Reads a node once its children have been read. -/
def ofFields (format : Format) (fields : Fields Entry) : Except Fault Node :=
  reader.run format (fun name e => Datum.passOver format name e.1) fields

mutual

/-- Reads a node. -/
def ofDatum : Format → Datum → Except Fault Node
  | format, .marked line d => atLine line (ofDatum format d)
  | format, .either asked _ => ofDatum format asked
  | format, .record given entries =>
    if Datum.typeFits "ParseNode" given && format.admits 2 then
      ofFields (format.inside 2) { entries := ofEntries (format.inside 2) entries }
    else .error .mismatch
  | format, .list items =>
    match Datum.fieldsOfList? format reader.names (ofItems format items) with
    | some fields => ofFields format fields
    | none => .error .mismatch
  | _, _ => .error .mismatch

/-- Reads the children of a node. -/
def childrenOf : Format → Datum → Except Fault (List Node)
  | format, .marked line d => atLine line (childrenOf format d)
  | format, .list [] => if format.admits 1 then .ok [] else .error .mismatch
  | format, .list items =>
    if format.admits 2 then ofData (format.inside 2) items else .error .mismatch
  | _, _ => .error .mismatch

/-- Reads the nodes of a list; the first failure counts. -/
def ofData : Format → List Datum → Except Fault (List Node)
  | _, [] => .ok []
  | format, d :: ds => do
    let n ← ofDatum format d
    let ns ← ofData format ds
    return n :: ns

/-- Prepares the entries of a node's record. -/
def ofEntries : Format → List (String × Datum) → List (String × Entry)
  | _, [] => []
  | format, (name, d) :: rest =>
    (name, d, if name = "children" then childrenOf format d else .ok []) :: ofEntries format rest

/-- Prepares the items of a list that stands for a node's record. -/
def ofItems : Format → List Datum → List Entry
  | _, [] => []
  | format, d :: ds => (d, childrenOf format d) :: ofItems format ds

end

end Node

namespace ParsedDocument

/-- Reads a sentence, which is a record around its root. -/
def sentenceOfDatum : Decoder Node :=
  Datum.toRecord "ParsedSentence" (.required "root" Node.ofDatum)

/-- The record of a document. -/
def toDatum (doc : ParsedDocument) : Datum :=
  .record none [
    ("doc_id", .text doc.docId),
    ("sentences", .ofList (fun root => .record none [("root", root.toDatum)]) doc.sentences)]

/-- Reads a document. -/
def ofDatum : Decoder ParsedDocument :=
  Datum.toRecord "ParsedDocument"
    (ParsedDocument.mk
      <$> .required "doc_id" Datum.toText
      <*> .required "sentences" (Datum.toList sentenceOfDatum))

instance : Structured ParsedDocument where
  toDatum := toDatum
  ofDatum := ofDatum

end ParsedDocument

end MentionAlign
