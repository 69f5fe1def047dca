import MentionAlign.Mention.Inventory
import MentionAlign.Predicate

/-!
# The cascade of strategies

For each response view the same ten rules are laid out from the strictest to the most permissive:

| rule | check                          | compares roles |
|------|--------------------------------|----------------|
| 0    | response span = gold extent    | yes            |
| 1    | response head = gold head      | yes            |
| 2    | response head = gold extent    | yes            |
| 3    | response span = gold head      | yes            |
| 4-7  | rules 0-3 without roles        | no             |
| 8    | containment with head guard    | yes            |
| 9    | containment with head guard    | no             |

The gold head is the gold extent where no head is annotated, and the response head is the response
span where no parse answers.
-/

namespace MentionAlign

/-- The four exact rules for a span kind, from the strictest on. -/
def exactRules (kind : SpanKind) : List Predicate :=
  [.exact (.plain kind) .extent, .exact (.head kind) .headOrExtent,
    .exact (.head kind) .extent, .exact (.plain kind) .headOrExtent]

/-- The containment rule for a span kind. -/
def containmentRule (kind : SpanKind) : Predicate :=
  .containment (.plain kind) (.head kind) .extent .headOrExtent

/-- A rule that also compares roles. -/
def Predicate.gated (p : Predicate) : Predicate := .both p .roleMatch

/-- The ten rules for a span kind. -/
def rules (kind : SpanKind) : List Predicate :=
  (exactRules kind).map Predicate.gated ++ exactRules kind
    ++ [(containmentRule kind).gated, containmentRule kind]

/-- One rule of a cascade. -/
structure Strategy where
  /-- The position in the whole cascade; a lower one is tried first. -/
  index : Nat
  /-- The span kind that the rule was laid out for. -/
  kind : SpanKind
  predicate : Predicate
deriving DecidableEq, Repr

namespace Strategy

/-- The label of a strategy. -/
def label (s : Strategy) : String := "#" ++ toString s.index ++ " " ++ s.predicate.label

/-- Every mention that satisfies the strategy, in inventory order. -/
def matching (s : Strategy) (inventory : Inventory) (ctx : MatchContext) (response : Response) :
    List GoldMention :=
  inventory.mentions.filter fun m => s.predicate.holds response m ctx

end Strategy

/-- The cascade for a list of span kinds, in that order. -/
def cascade (kinds : List SpanKind) : List Strategy :=
  (kinds.flatMap fun kind => (rules kind).map fun p => (kind, p)).mapIdx fun i rule =>
    { index := i, kind := rule.1, predicate := rule.2 }

/-- The cascade of the canonical argument before the base filler, shared by all standard set-ups. -/
def standardCascade : List Strategy := cascade [.canonicalArgument, .baseFiller]

/-- Each span kind contributes ten rules. -/
@[simp] theorem length_rules (kind : SpanKind) : (rules kind).length = 10 := rfl

end MentionAlign
