import MentionAlign.Head
import MentionAlign.Mention.Basic
import MentionAlign.Response.Basic

/-!
# Views

A view names a span of a response or of a gold mention.  A response view is one of two spans, as it
stands or narrowed to its head; a gold view is the extent, or the head with the extent behind it.
-/

namespace MentionAlign

/-- Which span of a response to align. -/
inductive SpanKind
  | canonicalArgument
  | baseFiller
deriving DecidableEq, Repr

namespace SpanKind

/-- The short label of a span kind. -/
def label : SpanKind → String
  | .canonicalArgument => "cas"
  | .baseFiller => "bf"

/-- The span of that kind. -/
def extract : SpanKind → Response → Span
  | .canonicalArgument, r => r.argument.span
  | .baseFiller, r => r.baseFiller

end SpanKind

/-- A response span, narrowed to its head or not. -/
structure ResponseView where
  kind : SpanKind
  headed : Bool := false
deriving DecidableEq, Repr

namespace ResponseView

/-- The view of the span as it stands. -/
def plain (kind : SpanKind) : ResponseView := { kind }

/-- The view of the span's head. -/
def head (kind : SpanKind) : ResponseView := { kind, headed := true }

/-- The label of a view. -/
def label (view : ResponseView) : String :=
  if view.headed then view.kind.label ++ " head" else view.kind.label

/-- The span that a view shows.  A head view shows the plain span when no head is known. -/
def extract (view : ResponseView) (response : Response) (oracle : Option HeadOracle) : Span :=
  let span := view.kind.extract response
  if view.headed then span.resolve oracle else span

/-- The spans for which showing the view asks the oracle. -/
def asked (view : ResponseView) (response : Response) (oracle : Option HeadOracle) : List Span :=
  if view.headed && oracle.isSome then [view.kind.extract response] else []

end ResponseView

/-- Which span of a gold mention to align against. -/
inductive GoldView
  | extent
  | headOrExtent
deriving DecidableEq, Repr

namespace GoldView

/-- The label of a gold view. -/
def label : GoldView → String
  | .extent => "extent"
  | .headOrExtent => "head"

/-- The span that a gold view shows. -/
def extract : GoldView → GoldMention → Span
  | .extent, m => m.extent
  | .headOrExtent, m => m.headOrExtent

end GoldView

end MentionAlign
