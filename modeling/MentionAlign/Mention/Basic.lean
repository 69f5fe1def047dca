import MentionAlign.Span.Basic

/-!
# Gold mentions

A gold argument is a mention of an annotated entity or a filler such as a time.  Outside data
arrives as raw records whose kind is a free text; reading one decides the kind once, and a kind
other than the two known ones is an error.
-/

namespace MentionAlign

/-- The identifier of one gold mention. -/
structure MentionId where
  name : String
deriving DecidableEq, Repr

/-- The unit that a matched response is scored against. -/
structure ScoringId where
  name : String
deriving DecidableEq, Repr

/-- An argument filled by a mention of an annotated entity; coreferent mentions share `entity`. -/
structure EntityMention where
  id : MentionId
  entity : String
  extent : Span
  head : Option Span := none
  role : String
deriving BEq, Repr

/-- An argument filled by something other than an entity. -/
structure FillerMention where
  id : MentionId
  extent : Span
  role : String
deriving BEq, Repr

/-- A gold argument mention. -/
inductive GoldMention
  | entity (mention : EntityMention)
  | filler (mention : FillerMention)
deriving BEq, Repr

namespace GoldMention

/-- The identifier of the mention. -/
def id : GoldMention → MentionId
  | .entity m => m.id
  | .filler m => m.id

/-- The role of the mention in the vocabulary of the gold data. -/
def role : GoldMention → String
  | .entity m => m.role
  | .filler m => m.role

/-- The offsets of the whole mention. -/
def extent : GoldMention → Span
  | .entity m => m.extent
  | .filler m => m.extent

/-- The annotated head; a filler never carries one. -/
def head? : GoldMention → Option Span
  | .entity m => m.head
  | .filler _ => none

/-- The scoring unit: the entity of an entity mention, and a filler by itself. -/
def scoringId : GoldMention → ScoringId
  | .entity m => ⟨m.entity⟩
  | .filler m => ⟨m.id.name⟩

/-- The annotated head, or the extent where there is none. -/
def headOrExtent (m : GoldMention) : Span := m.head?.getD m.extent

end GoldMention

/-- A mention record as annotation readers supply it. -/
structure RawMention where
  id : String
  kind : String
  entity : Option String := none
  extent : Span
  head : Option Span := none
  role : String
deriving BEq, Repr

/-- The mention that a record stands for.  An entity mention without a cluster is an entity of its
own, and the head of a filler is dropped. -/
def GoldMention.ofRaw (raw : RawMention) : Except InputError GoldMention :=
  if raw.kind = "entity" then
    .ok (.entity {
      id := ⟨raw.id⟩, entity := raw.entity.getD raw.id, extent := raw.extent, head := raw.head,
      role := raw.role })
  else if raw.kind = "filler" then
    .ok (.filler { id := ⟨raw.id⟩, extent := raw.extent, role := raw.role })
  else .error (.unknownMentionKind raw.id raw.kind)

/-- The record that reads back as the given mention. -/
def GoldMention.toRaw : GoldMention → RawMention
  | .entity m => {
      id := m.id.name, kind := "entity", entity := some m.entity, extent := m.extent,
      head := m.head, role := m.role }
  | .filler m => { id := m.id.name, kind := "filler", extent := m.extent, role := m.role }

/-- Reading the record of a mention gives the mention back. -/
theorem GoldMention.ofRaw_toRaw (m : GoldMention) : ofRaw m.toRaw = .ok m := by
  cases m <;> simp [ofRaw, toRaw]

end MentionAlign
