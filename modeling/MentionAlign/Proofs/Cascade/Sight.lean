import MentionAlign.Cascade.Strategy
import MentionAlign.Proofs.Head.Oracles

/-!
# What the rules see

The ten rules for a span kind see four spans and one bit of a response and a mention: the response
span, its head, the gold extent, the gold head, and whether the roles agree.  `holds_rules` writes
their ten verdicts as a function of such a `Sight`.  Two uses are made of it.

* `Agree.verdicts_eq`: only offsets count, so sights that agree have the same verdicts.
* `Within.true_mem_verdicts_iff`: when both heads lie within their spans, some rule holds exactly
  when the spans are nested or the heads agree.  The head guard of containment has no say then.
-/

namespace MentionAlign

/-- What the rules for a span kind see of a response and a mention. -/
structure Sight where
  span : Span
  head : Span
  extent : Span
  goldHead : Span
  rolesAgree : Bool

/-- What there is to see of a response and a mention. -/
def SpanKind.sight (kind : SpanKind) (response : Response) (mention : GoldMention)
    (ctx : MatchContext) : Sight where
  span := kind.extract response
  head := (kind.extract response).resolve ctx.oracle
  extent := mention.extent
  goldHead := mention.headOrExtent
  rolesAgree := ctx.roles mention.role == some response.role

namespace Sight

/-- The verdicts of the four exact rules. -/
def exactVerdicts (s : Sight) : List Bool :=
  [s.span == s.extent, s.head == s.goldHead, s.head == s.extent, s.span == s.goldHead]

/-- The verdict of the containment rule. -/
def contained (s : Sight) : Bool :=
  Predicate.covers s.span s.extent s.head s.goldHead
    || Predicate.covers s.extent s.span s.head s.goldHead

/-- The verdicts of the ten rules. -/
def verdicts (s : Sight) : List Bool :=
  s.exactVerdicts.map (· && s.rolesAgree) ++ s.exactVerdicts
    ++ [s.contained && s.rolesAgree, s.contained]

end Sight

section Rules

variable {kind : SpanKind} {response : Response} {mention : GoldMention} {ctx : MatchContext}

/-- The containment rule decides by what it sees. -/
theorem holds_containmentRule :
    (containmentRule kind).holds response mention ctx =
      (kind.sight response mention ctx).contained := rfl

/-- **The ten rules decide by what they see.** -/
theorem holds_rules :
    (rules kind).map (fun p => p.holds response mention ctx) =
      (kind.sight response mention ctx).verdicts := by
  simp only [rules, exactRules, Predicate.gated, List.map_append, List.map_cons, List.map_nil,
    Predicate.holds_both, holds_containmentRule]
  rfl

/-- Some rule holds exactly when some verdict on what is seen is positive. -/
theorem exists_rule_holds_iff :
    (∃ p ∈ rules kind, p.holds response mention ctx) ↔
      true ∈ (kind.sight response mention ctx).verdicts := by
  rw [← holds_rules, List.mem_map]

end Rules

namespace Sight

/-- Two sights with the same offsets and the same agreement of roles. -/
structure Agree (a b : Sight) : Prop where
  span : a.span == b.span
  head : a.head == b.head
  extent : a.extent == b.extent
  goldHead : a.goldHead == b.goldHead
  roles : a.rolesAgree = b.rolesAgree

/-- **Only offsets count.**  Sights that agree have the same verdicts. -/
theorem Agree.verdicts_eq {a b : Sight} (h : a.Agree b) : a.verdicts = b.verdicts := by
  obtain ⟨hspan, hspan'⟩ := Span.beq_iff.mp h.span
  obtain ⟨hhead, hhead'⟩ := Span.beq_iff.mp h.head
  obtain ⟨hextent, hextent'⟩ := Span.beq_iff.mp h.extent
  obtain ⟨hgold, hgold'⟩ := Span.beq_iff.mp h.goldHead
  have hexact : a.exactVerdicts = b.exactVerdicts := by
    simp only [exactVerdicts, BEq.beq, hspan, hspan', hhead, hhead', hextent, hextent', hgold,
      hgold']
  have hcontained : a.contained = b.contained := by
    simp only [contained, Predicate.covers, Span.encloses, hspan, hspan', hhead, hhead', hextent,
      hextent', hgold, hgold']
  rw [verdicts, verdicts, hexact, hcontained, h.roles]

end Sight

/-- Rules at the same place have the same verdict where what they see agrees. -/
theorem holds_eq_of_agree {kind kind' : SpanKind} {response response' : Response}
    {mention mention' : GoldMention} {ctx ctx' : MatchContext} {i : Nat} {p q : Predicate}
    (h : (kind.sight response mention ctx).Agree (kind'.sight response' mention' ctx'))
    (hp : (rules kind)[i]? = some p) (hq : (rules kind')[i]? = some q) :
    p.holds response mention ctx = q.holds response' mention' ctx' := by
  have hverdicts := h.verdicts_eq
  rw [← holds_rules, ← holds_rules] at hverdicts
  have hplace := congrArg (fun verdicts => verdicts[i]?) hverdicts
  simp only [List.getElem?_map, hp, hq, Option.map_some, Option.some.injEq] at hplace
  exact hplace

namespace Sight

/-- Some verdict is positive exactly when one of the role-free ones is. -/
theorem true_mem_verdicts_iff (s : Sight) :
    true ∈ s.verdicts ↔
      s.span == s.extent ∨ s.head == s.goldHead ∨ s.head == s.extent ∨ s.span == s.goldHead ∨
        s.contained := by
  -- a verdict that also asks for the roles is positive only if its role-free one is
  cases hroles : s.rolesAgree with
  | false => simp [verdicts, exactVerdicts, hroles]
  | true =>
      simp only [verdicts, exactVerdicts, hroles, Bool.and_true, List.mem_append, List.map_cons,
        List.map_nil, List.mem_cons, List.not_mem_nil, or_false, eq_comm (a := true)]
      tauto

/-- Both heads lie within their spans. -/
structure Within (s : Sight) : Prop where
  head : s.span.encloses s.head
  goldHead : s.extent.encloses s.goldHead

variable {s : Sight}

/-- **The head guard never rejects** when both heads lie within their spans: whichever span is the
outer one encloses both. -/
theorem Within.contained_iff (h : s.Within) :
    s.contained ↔ s.span.encloses s.extent ∨ s.extent.encloses s.span := by
  have hhead := Span.encloses_iff.mp h.head
  have hgold := Span.encloses_iff.mp h.goldHead
  simp only [contained, Predicate.covers, Bool.or_eq_true, Bool.and_eq_true, Span.encloses_iff]
  omega

/-- **Two conditions for ten rules.**  When both heads lie within their spans, some verdict is
positive exactly when one span encloses the other or the heads agree. -/
theorem Within.true_mem_verdicts_iff (h : s.Within) :
    true ∈ s.verdicts ↔
      s.span.encloses s.extent ∨ s.extent.encloses s.span ∨ s.head == s.goldHead := by
  have hhead := Span.encloses_iff.mp h.head
  have hgold := Span.encloses_iff.mp h.goldHead
  rw [Sight.true_mem_verdicts_iff, h.contained_iff]
  simp only [Span.encloses_iff, Span.beq_iff]
  omega

/-- Spans that pass a rule share an offset when both heads lie within their spans. -/
theorem Within.shared_offset (h : s.Within) (hsome : true ∈ s.verdicts) :
    ∃ offset, (s.span.start ≤ offset ∧ offset ≤ s.span.stop) ∧
      (s.extent.start ≤ offset ∧ offset ≤ s.extent.stop) := by
  have hhead := Span.encloses_iff.mp h.head
  have hgold := Span.encloses_iff.mp h.goldHead
  have hspan := s.span.start_le_stop
  have hextent := s.extent.start_le_stop
  have hheads := s.head.start_le_stop
  rcases h.true_mem_verdicts_iff.mp hsome with houter | hinner | hsame
  · have hbounds := Span.encloses_iff.mp houter
    exact ⟨s.extent.start, by omega, by omega⟩
  · have hbounds := Span.encloses_iff.mp hinner
    exact ⟨s.span.start, by omega, by omega⟩
  · have hoffsets := Span.beq_iff.mp hsame
    exact ⟨s.head.start, by omega, by omega⟩

end Sight

end MentionAlign
