import MentionAlign.Role
import MentionAlign.View

/-!
# Predicates

A predicate is a check between a response and a gold mention, kept as data.  Evaluating one may ask
two collaborators: the head oracle and the role map.  `Predicate.evaluate` gives the verdict along
with the questions asked, in order; `holds` and `calls` are its two parts.
-/

namespace MentionAlign

/-- The collaborators that a predicate may ask about one document. -/
structure MatchContext where
  oracle : Option HeadOracle
  roles : RoleMap

/-- The one-line form of a context says only whether it has an oracle. -/
def MatchContext.describe (ctx : MatchContext) : String :=
  "MatchContext \x7b has_head_lookup: " ++ toString ctx.oracle.isSome ++ " \x7d"

/-- A question put to a collaborator. -/
inductive Call
  /-- The head of a span. -/
  | head (span : Span)
  /-- The counterpart of a gold role. -/
  | role (gold : String)
deriving Repr

/-- The one-line form of a call. -/
def Call.describe : Call → String
  | .head span => "head " ++ span.render
  | .role gold => "role " ++ gold

/-- A check between a response and a gold mention. -/
inductive Predicate
  /-- The response view has the offsets of the gold view. -/
  | exact (response : ResponseView) (gold : GoldView)
  /-- One extent encloses the other, and the enclosing one also encloses both heads. -/
  | containment (responseExtent responseHead : ResponseView) (goldExtent goldHead : GoldView)
  /-- The counterpart of the gold role is the role of the response. -/
  | roleMatch
  /-- Both hold; the second is asked only when the first does. -/
  | both (first second : Predicate)
deriving DecidableEq, Repr

namespace Predicate

/-- Whether `outer` encloses `inner` and both heads. -/
def covers (outer inner responseHead goldHead : Span) : Bool :=
  outer.encloses inner && (outer.encloses responseHead && outer.encloses goldHead)

/-- The verdict of a predicate, along with the questions asked on the way to it. -/
def evaluate (response : Response) (mention : GoldMention) (ctx : MatchContext) :
    Predicate → Bool × List Call
  | exact view gold =>
    (view.extract response ctx.oracle == gold.extract mention,
      (view.asked response ctx.oracle).map Call.head)
  | containment responseExtent responseHead goldExtent goldHead =>
    let re := responseExtent.extract response ctx.oracle
    let rh := responseHead.extract response ctx.oracle
    let ge := goldExtent.extract mention
    let gh := goldHead.extract mention
    (covers re ge rh gh || covers ge re rh gh,
      (responseExtent.asked response ctx.oracle ++ responseHead.asked response ctx.oracle).map
        Call.head)
  | roleMatch => (ctx.roles mention.role == some response.role, [.role mention.role])
  | both first second =>
    let a := first.evaluate response mention ctx
    if a.1 then
      let b := second.evaluate response mention ctx
      (b.1, a.2 ++ b.2)
    else (false, a.2)

/-- Whether the predicate holds. -/
def holds (p : Predicate) (response : Response) (mention : GoldMention) (ctx : MatchContext) :
    Bool :=
  (p.evaluate response mention ctx).1

/-- The questions asked while the predicate is evaluated, in order. -/
def calls (p : Predicate) (response : Response) (mention : GoldMention) (ctx : MatchContext) :
    List Call :=
  (p.evaluate response mention ctx).2

/-- Whether any part of the predicate compares roles. -/
def isRoleGated : Predicate → Bool
  | exact .. => false
  | containment .. => false
  | roleMatch => true
  | both first second => first.isRoleGated || second.isRoleGated

/-- The label of a predicate. -/
def label : Predicate → String
  | exact view gold => view.label ++ " = gold " ++ gold.label
  | containment responseExtent .. => responseExtent.label ++ " contains/within gold"
  | roleMatch => "role"
  | both first second => first.label ++ " & " ++ second.label

section Equations

variable {response : Response} {mention : GoldMention} {ctx : MatchContext}

@[simp] theorem holds_exact {view : ResponseView} {gold : GoldView} :
    (exact view gold).holds response mention ctx
      = (view.extract response ctx.oracle == gold.extract mention) := rfl

@[simp] theorem holds_roleMatch :
    roleMatch.holds response mention ctx = (ctx.roles mention.role == some response.role) := rfl

@[simp] theorem holds_both {p q : Predicate} :
    (both p q).holds response mention ctx
      = (p.holds response mention ctx && q.holds response mention ctx) := by
  simp only [holds, evaluate]; split <;> simp [*]

@[simp] theorem calls_both {p q : Predicate} :
    (both p q).calls response mention ctx
      = p.calls response mention ctx
        ++ if p.holds response mention ctx then q.calls response mention ctx else [] := by
  simp only [calls, holds, evaluate]; split <;> simp [*]

end Equations

end Predicate

end MentionAlign
