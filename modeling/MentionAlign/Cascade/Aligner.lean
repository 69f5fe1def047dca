import MentionAlign.Alignment
import MentionAlign.Cascade.Strategy
import MentionAlign.LogRecord

/-!
# The aligner

Strategies are tried in order, and the first one that any mention satisfies decides.  Its first
mention in inventory order is the result; when its mentions belong to several scoring units the
result carries the ambiguity, and a warning is recorded.
-/

namespace MentionAlign

/-- How an aligner is set up. -/
structure Config where
  /-- Narrow response spans to their heads when an oracle is there. -/
  relaxWithHeads : Bool := true
  /-- The span kinds to lay out, in order of priority. -/
  views : List SpanKind := [.canonicalArgument, .baseFiller]
deriving DecidableEq, Repr

namespace Config

/-- The canonical argument before the base filler, with heads. -/
def standard : Config := {}

/-- The same set-up without heads. -/
def withoutHeads (config : Config) : Config := { config with relaxWithHeads := false }

/-- Whether the span kinds are those of the standard set-up, in the same order. -/
def usesStandardViews (config : Config) : Bool := config.views == standard.views

/-- The strategies that a set-up lays out; the standard ones are not laid out anew. -/
def strategies (config : Config) : List Strategy :=
  if config.usesStandardViews then standardCascade else cascade config.views

/-- The shared cascade is the one that its span kinds lay out. -/
theorem strategies_eq (config : Config) : config.strategies = cascade config.views := by
  unfold strategies
  split
  · next h => rw [eq_of_beq h]; rfl
  · rfl

end Config

/-- The distinct scoring units of a list of mentions, in order of their first mention. -/
def scoringUnits (mentions : List GoldMention) : List ScoringId :=
  (mentions.map GoldMention.scoringId).eraseDups

/-- The ambiguity of a list of matching mentions: present when they belong to several units. -/
def Ambiguity.among (responseId : String) (mentions : List GoldMention) : Option Ambiguity :=
  if 1 < (scoringUnits mentions).length then
    some { responseId, candidates := mentions.map Candidate.ofMention }
  else none

/-- The match that a strategy yields for the mentions that satisfy it. -/
def Strategy.verdict (s : Strategy) (responseId : String) :
    List GoldMention → Option AlignedMention
  | [] => none
  | first :: rest => some {
      mention := first.id, scoringId := first.scoringId, strategy := s.index,
      ambiguity := Ambiguity.among responseId (first :: rest) }

/-- An aligner bound to one document. -/
structure DocumentAligner where
  strategies : List Strategy
  inventory : Inventory
  ctx : MatchContext

namespace DocumentAligner

/-- Binds a set-up to a document.  Without head relaxation the oracle is ignored. -/
def ofConfig (config : Config) (inventory : Inventory) (oracle : Option HeadOracle)
    (roles : RoleMap) : DocumentAligner where
  strategies := config.strategies
  inventory
  ctx := { oracle := if config.relaxWithHeads then oracle else none, roles }

/-- Every mention that satisfies a strategy, in inventory order. -/
def matching (aligner : DocumentAligner) (response : Response) (s : Strategy) :
    List GoldMention :=
  s.matching aligner.inventory aligner.ctx response

/-- Tries strategies in order; the records tell what happened. -/
def search (aligner : DocumentAligner) (response : Response) :
    List Strategy → Alignment × List LogRecord
  | [] =>
    (.unmatched,
      [⟨.trace, "response " ++ response.uniqueId ++ " matched no gold mention"⟩])
  | s :: rest =>
    match s.verdict response.uniqueId (aligner.matching response s) with
    | some aligned =>
      (.matched aligned,
        aligned.ambiguity.toList.map (fun a => ⟨.warn, a.render⟩)
          ++ [⟨.debug, "response " ++ response.uniqueId ++ " aligned by strategy " ++ s.label⟩])
    | none => aligner.search response rest

/-- Aligns one response, along with the records of it. -/
def alignLogged (aligner : DocumentAligner) (response : Response) : Alignment × List LogRecord :=
  aligner.search response aligner.strategies

/-- Aligns one response. -/
def align (aligner : DocumentAligner) (response : Response) : Alignment :=
  (aligner.alignLogged response).1

/-- Aligns each response, in order. -/
def alignAll (aligner : DocumentAligner) (responses : List Response) : List Alignment :=
  responses.map aligner.align

/-- The records of aligning each response, in order. -/
def alignAllRecords (aligner : DocumentAligner) (responses : List Response) : List LogRecord :=
  responses.flatMap fun r => (aligner.alignLogged r).2

end DocumentAligner

end MentionAlign
