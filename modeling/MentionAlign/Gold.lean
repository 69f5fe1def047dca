import MentionAlign.Mention.Inventory

/-!
# Gold documents

The annotation of one document: events, each with its event mentions, each with its arguments.  The
aligner sees the arguments as one inventory in exactly this nesting order.  The documents are
generic in the type of arguments, raw records as read or mentions once their kinds are known.
-/

namespace MentionAlign

/-- One mention of an event with its arguments. -/
structure EventMention (α : Type) where
  id : String
  eventType : String
  trigger : Option Span := none
  arguments : List α := []
deriving BEq, Repr

/-- An event with its mentions. -/
structure Event (α : Type) where
  id : String
  mentions : List (EventMention α) := []
deriving BEq, Repr

/-- All events of one document. -/
structure GoldDocument (α : Type) where
  docId : String
  events : List (Event α) := []
deriving BEq, Repr

namespace EventMention

variable {α β ε : Type}

/-- The same event mention with every argument replaced. -/
def map (f : α → β) (m : EventMention α) : EventMention β :=
  { m with arguments := m.arguments.map f }

/-- The same event mention with every argument read; the first failure counts. -/
def mapM (f : α → Except ε β) (m : EventMention α) : Except ε (EventMention β) := do
  return { m with arguments := ← m.arguments.mapM f }

end EventMention

namespace Event

variable {α β ε : Type}

/-- The same event with every argument replaced. -/
def map (f : α → β) (e : Event α) : Event β := { e with mentions := e.mentions.map (·.map f) }

/-- The same event with every argument read; the first failure counts. -/
def mapM (f : α → Except ε β) (e : Event α) : Except ε (Event β) := do
  return { e with mentions := ← e.mentions.mapM (·.mapM f) }

end Event

namespace GoldDocument

variable {α β ε : Type}

/-- The arguments in nesting order. -/
def arguments (doc : GoldDocument α) : List α :=
  doc.events.flatMap fun e => e.mentions.flatMap EventMention.arguments

/-- The same document with every argument replaced. -/
def map (f : α → β) (doc : GoldDocument α) : GoldDocument β :=
  { doc with events := doc.events.map (·.map f) }

/-- The same document with every argument read; the first failure in nesting order counts. -/
def mapM (f : α → Except ε β) (doc : GoldDocument α) : Except ε (GoldDocument β) := do
  return { doc with events := ← doc.events.mapM (·.mapM f) }

/-- The mentions that the aligner runs against. -/
def inventory (doc : GoldDocument GoldMention) : Inventory := ⟨doc.arguments⟩

/-- Decides the kind of every argument; the first of unknown kind is the error. -/
def ofRaw (raw : GoldDocument RawMention) : Except InputError (GoldDocument GoldMention) :=
  raw.mapM GoldMention.ofRaw

/-- The document of raw records that reads back as the given one. -/
def toRaw (doc : GoldDocument GoldMention) : GoldDocument RawMention := doc.map GoldMention.toRaw

end GoldDocument

end MentionAlign
