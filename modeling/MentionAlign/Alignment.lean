import MentionAlign.Mention.Basic

/-!
# Alignments

The outcome of aligning one response: no match, or the first matching mention together with the
strategy that found it and, when that strategy matched several scoring units, the ambiguity.
-/

namespace MentionAlign

/-- A gold mention that satisfied the winning strategy. -/
structure Candidate where
  mention : MentionId
  scoringId : ScoringId
deriving DecidableEq, Repr

/-- The candidate that a mention makes. -/
def Candidate.ofMention (m : GoldMention) : Candidate where
  mention := m.id
  scoringId := m.scoringId

/-- The one-line form of a candidate. -/
def Candidate.render (c : Candidate) : String := c.mention.name ++ " (" ++ c.scoringId.name ++ ")"

/-- The diagnosis of a strategy that matched more than one scoring unit. -/
structure Ambiguity where
  responseId : String
  /-- Every matched mention, in inventory order. -/
  candidates : List Candidate
deriving DecidableEq, Repr

/-- The one-line form of an ambiguity. -/
def Ambiguity.render (a : Ambiguity) : String :=
  "multiple gold matches for response " ++ a.responseId ++ ": ["
    ++ ", ".intercalate (a.candidates.map Candidate.render) ++ "]"

/-- The identifiers of the candidates, in order. -/
def Ambiguity.mentionIds (a : Ambiguity) : List MentionId := a.candidates.map Candidate.mention

/-- A successful alignment. -/
structure AlignedMention where
  /-- The first matching mention in inventory order. -/
  mention : MentionId
  scoringId : ScoringId
  /-- The index of the strategy that matched. -/
  strategy : Nat
  /-- Present when the strategy matched several scoring units. -/
  ambiguity : Option Ambiguity := none
deriving DecidableEq, Repr

/-- The outcome of aligning one response. -/
inductive Alignment
  | matched (aligned : AlignedMention)
  | unmatched
deriving DecidableEq, Repr

namespace Alignment

/-- The aligned mention, where there is one. -/
def aligned? : Alignment → Option AlignedMention
  | matched a => some a
  | unmatched => none

/-- Whether a mention was found. -/
def isMatched (a : Alignment) : Bool := a.aligned?.isSome

/-- The mention that was found. -/
def mentionId? (a : Alignment) : Option MentionId := a.aligned?.map AlignedMention.mention

/-- The scoring unit that was found. -/
def scoringId? (a : Alignment) : Option ScoringId := a.aligned?.map AlignedMention.scoringId

/-- The index of the strategy that matched. -/
def strategy? (a : Alignment) : Option Nat := a.aligned?.map AlignedMention.strategy

/-- The ambiguity of the match, where there is one. -/
def ambiguity? (a : Alignment) : Option Ambiguity := a.aligned?.bind AlignedMention.ambiguity

/-- Whether the match is ambiguous. -/
def isAmbiguous (a : Alignment) : Bool := a.ambiguity?.isSome

/-- The one-line form of an alignment. -/
def render : Alignment → String
  | matched a =>
    a.mention.name ++ " (" ++ a.scoringId.name ++ ") via #" ++ toString a.strategy
      ++ if a.ambiguity.isSome then " [ambiguous]" else ""
  | unmatched => "unmatched"

end Alignment

end MentionAlign
