import MentionAlign.Cascade.Aligner
import MentionAlign.Fixture.Case
import MentionAlign.Gold
import MentionAlign.Tree.Document

/-!
# Fixtures

A fixture is a scenario for one document: its gold events, its text with the trees of its sentences,
a role table, the set-up of the aligner, and the cases.  Spans are texts; the gold document of a
fixture reads all of them first and decides the kinds of the arguments after that.
-/

namespace MentionAlign

/-- The document of a fixture. -/
structure FixtureDocument where
  id : String
  text : String := ""
  /-- Bracketed trees over the text, one for each sentence. -/
  trees : List String := []
deriving DecidableEq, Repr

/-- A gold argument as a fixture writes it. -/
structure FixtureArgument where
  id : String
  kind : String
  entity : Option String := none
  extent : String
  head : Option String := none
  role : String
deriving DecidableEq, Repr

/-- A mention of a gold event as a fixture writes it. -/
structure FixtureMention where
  id : String
  eventType : String
  trigger : Option String := none
  arguments : List FixtureArgument := []
deriving DecidableEq, Repr

/-- A gold event as a fixture writes it. -/
structure FixtureEvent where
  id : String
  mentions : List FixtureMention := []
deriving DecidableEq, Repr

/-- A scenario for one document. -/
structure Fixture where
  title : Option String := none
  document : FixtureDocument
  config : Config := Config.standard
  /-- The counterparts of gold roles; without a table they are response roles already. -/
  roles : Option RoleTable := none
  events : List FixtureEvent := []
  cases : List Case := []
deriving Repr

/-- Why a fixture cannot be run. -/
inductive FixtureError
  | input (error : InputError)
  | tree (error : TreeError)
  /-- A case that expects a mention which the gold document does not hold. -/
  | unknownMention (response : String) (mention : MentionId)
deriving DecidableEq, Repr

/-- The wording of a fixture error. -/
def FixtureError.message : FixtureError → String
  | .input error => error.message
  | .tree error => error.message
  | .unknownMention response mention =>
    "assertion failed: response " ++ response ++ " expects unknown mention " ++ mention.name

/-- The record that an argument describes. -/
def FixtureArgument.toRaw (a : FixtureArgument) : Except InputError RawMention := do
  let extent ← Span.parse a.extent
  let head ← a.head.mapM Span.parse
  return { id := a.id, kind := a.kind, entity := a.entity, extent, head, role := a.role }

/-- The event mention that a fixture describes, with records for its arguments. -/
def FixtureMention.toRaw (m : FixtureMention) : Except InputError (EventMention RawMention) := do
  let trigger ← m.trigger.mapM Span.parse
  let arguments ← m.arguments.mapM FixtureArgument.toRaw
  return { id := m.id, eventType := m.eventType, trigger, arguments }

/-- The event that a fixture describes, with records for its arguments. -/
def FixtureEvent.toRaw (e : FixtureEvent) : Except InputError (Event RawMention) := do
  return { id := e.id, mentions := ← e.mentions.mapM FixtureMention.toRaw }

namespace Fixture

/-- The gold document with records for its arguments; the first bad span is the error. -/
def rawGold (f : Fixture) : Except InputError (GoldDocument RawMention) := do
  return { docId := f.document.id, events := ← f.events.mapM FixtureEvent.toRaw }

/-- The gold document.  A bad span anywhere comes before an argument of unknown kind. -/
def gold (f : Fixture) : Except InputError (GoldDocument GoldMention) :=
  f.rawGold >>= GoldDocument.ofRaw

/-- The parse, when the fixture has trees. -/
def parse (f : Fixture) : Except TreeError (Option ParsedDocument) :=
  if f.document.trees.isEmpty then .ok none
  else (ParsedDocument.ofBracketed f.document.id f.document.text f.document.trees).map some

/-- The map from gold roles to response roles. -/
def roleMap (f : Fixture) : RoleMap :=
  match f.roles with
  | some table => table.toMap
  | none => RoleMap.identity

/-- The text under a span, when the document text reaches that far. -/
def textOf (f : Fixture) (span : Span) : Option String :=
  let cs := f.document.text.toList
  if span.stop < cs.length then
    some (String.ofList ((cs.drop span.start).take (span.stop + 1 - span.start)))
  else none

end Fixture

/-- A gold document with its parse, where there is one. -/
structure AnnotatedDocument where
  gold : GoldDocument GoldMention
  parse : Option ParsedDocument
deriving BEq, Repr

namespace AnnotatedDocument

/-- The oracle that the parse makes. -/
def oracle (doc : AnnotatedDocument) : Option HeadOracle := doc.parse.map ParsedDocument.headOf

end AnnotatedDocument

/-- The document of a fixture; a fault of the gold data comes before one of the trees. -/
def Fixture.annotated (f : Fixture) : Except FixtureError AnnotatedDocument := do
  let gold ← f.gold.mapError FixtureError.input
  let parse ← f.parse.mapError FixtureError.tree
  return { gold, parse }

end MentionAlign
