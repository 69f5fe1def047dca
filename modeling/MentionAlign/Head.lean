import MentionAlign.Span.Basic

/-!
# Heads of spans

Nothing here computes a syntactic head.  An oracle supplied from outside answers for some spans,
and every failure to answer means that the span stays as it is.
-/

namespace MentionAlign

/-- The head of the constituent that covers exactly the given span, where it is known. -/
abbrev HeadOracle := Span → Option Span

/-- The outcome of asking for a head. -/
inductive Refinement
  | refined (head : Span)
  | unrefined
deriving BEq, Repr

/-- The head, or the span that was asked for. -/
def Refinement.orElse : Refinement → Span → Span
  | .refined head, _ => head
  | .unrefined, span => span

namespace Span

/-- Asks the oracle, where there is one, for the head of a span. -/
def refine (span : Span) (oracle : Option HeadOracle) : Refinement :=
  match oracle.bind (· span) with
  | some head => .refined head
  | none => .unrefined

/-- The head of a span, or the span itself. -/
def resolve (span : Span) (oracle : Option HeadOracle) : Span :=
  (span.refine oracle).orElse span

@[simp] theorem resolve_none (span : Span) : span.resolve none = span := rfl

end Span

/-- The oracle that looks a span up in a list of pairs; the first pair whose query agrees with the
span answers. -/
def HeadOracle.ofPairs (pairs : List (Span × Span)) : HeadOracle :=
  fun span => (pairs.find? fun pair => pair.1 == span).map Prod.snd

end MentionAlign
