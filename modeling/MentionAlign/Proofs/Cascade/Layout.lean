import MentionAlign.Proofs.Cascade.Winner
import MentionAlign.Proofs.Predicate.Inquiry

/-!
# The places of a cascade

The position of a strategy in a cascade is ten times the number of its block and its place in the
block.  The block tells the span kind, and so the views that the rule shows.  The place tells the
check, whether roles are compared, and for a rule that does not compare them where the same rule
with the comparison stands.  `Placed` puts this together.  The position in a result is that of the
rule that won, so all this can be told from a result as well.
-/

namespace MentionAlign

/-- What the position of a strategy in the cascade of some span kinds tells about it. -/
structure Placed (kinds : List SpanKind) (k : Nat) (s : Strategy) : Prop where
  index : s.index = k
  block : kinds[k / 10]? = some s.kind
  rule : (rules s.kind)[k % 10]? = some s.predicate
  shown : ∀ view ∈ s.predicate.responseViews, view.kind = s.kind
  gated : s.predicate.isRoleGated = true ↔ k % 10 < 4 ∨ k % 10 = 8
  exactTwin : 4 ≤ k % 10 → k % 10 < 8 →
    ∃ t, (cascade kinds)[k - 4]? = some t ∧ t.predicate = .both s.predicate .roleMatch
  containmentTwin : k % 10 = 9 →
    ∃ t, (cascade kinds)[k - 1]? = some t ∧ t.predicate = .both s.predicate .roleMatch

section Places

variable {kinds : List SpanKind} {kind : SpanKind} {place k : Nat} {p : Predicate} {s : Strategy}

/-- The rules for a span kind show views of that kind alone. -/
theorem kind_of_mem_responseViews (hp : p ∈ rules kind) :
    ∀ view ∈ p.responseViews, view.kind = kind := by
  simp only [rules, exactRules, containmentRule, List.map_cons, List.map_nil, List.cons_append,
    List.nil_append, List.mem_cons, List.not_mem_nil, or_false] at hp
  rcases hp with rfl | rfl | rfl | rfl | rfl | rfl | rfl | rfl | rfl | rfl <;>
    simp [Predicate.gated, Predicate.responseViews, ResponseView.plain, ResponseView.head]

/-- Four places before an exact rule that does not compare roles stands the same rule with the
comparison. -/
theorem getElem?_rules_exactTwin (hp : (rules kind)[place]? = some p) (hlow : 4 ≤ place)
    (hhigh : place < 8) : (rules kind)[place - 4]? = some p.gated := by
  interval_cases place <;> obtain rfl := Option.some.inj hp <;> rfl

/-- Right before the containment rule stands the same rule with the comparison of roles. -/
theorem getElem?_rules_containmentTwin (hp : (rules kind)[9]? = some p) :
    (rules kind)[8]? = some p.gated := by
  obtain rfl := Option.some.inj hp
  rfl

/-- A rule earlier in the block of a position stands in the cascade as much earlier. -/
theorem getElem?_cascade_sub {d : Nat} (hblock : kinds[k / 10]? = some kind) (hd : d ≤ k % 10)
    (hp : (rules kind)[k % 10 - d]? = some p) :
    (cascade kinds)[k - d]? = some { index := k - d, kind, predicate := p } := by
  have hdiv : (k - d) / 10 = k / 10 := by omega
  have hmod : (k - d) % 10 = k % 10 - d := by omega
  rw [getElem?_cascade_eq_some_iff, hdiv, hmod]
  exact ⟨rfl, hblock, hp⟩

/-- Every strategy of a cascade is placed where it stands. -/
theorem placed_of_getElem? (h : (cascade kinds)[k]? = some s) : Placed kinds k s := by
  obtain ⟨hindex, hblock, hrule⟩ := getElem?_cascade_eq_some_iff.mp h
  refine ⟨hindex, hblock, hrule, kind_of_mem_responseViews (List.mem_of_getElem? hrule),
    isRoleGated_iff_place hrule, fun hlow hhigh => ?_, fun hlast => ?_⟩
  · exact ⟨_, getElem?_cascade_sub hblock hlow (getElem?_rules_exactTwin hrule hlow hhigh), rfl⟩
  · rw [hlast] at hrule
    have htwin : (rules s.kind)[k % 10 - 1]? = some s.predicate.gated := by
      rw [hlast]
      exact getElem?_rules_containmentTwin hrule
    exact ⟨_, getElem?_cascade_sub hblock (by omega) htwin, rfl⟩

end Places

/-- **The layout of a cascade.**  A cascade has ten strategies for each span kind, and a strategy is
placed where it stands.  An aligner walks the cascade of its views, whether it shares the standard
one or not.  So the position in a match is that of the strategy whose verdict the match is, while no
strategy before it has any, and the view of the strategy is that of the block. -/
theorem cascade_stands_in_blocks :
    (∀ kinds : List SpanKind, (cascade kinds).length = 10 * kinds.length ∧
      ∀ k s, (cascade kinds)[k]? = some s → Placed kinds k s) ∧
    ∀ (config : Config) (inventory : Inventory) (oracle : Option HeadOracle) (roles : RoleMap),
      let aligner := DocumentAligner.ofConfig config inventory oracle roles
      config.strategies = cascade config.views ∧ aligner.strategies = cascade config.views ∧
      ∀ response aligned, aligner.align response = .matched aligned →
        ∃ s, aligner.strategies[aligned.strategy]? = some s ∧
          config.views[aligned.strategy / 10]? = some s.kind ∧
          (∀ j < aligned.strategy, ∀ t, aligner.strategies[j]? = some t →
            aligner.matching response t = []) ∧
          s.verdict response.uniqueId (aligner.matching response s) = some aligned := by
  refine ⟨fun kinds => ⟨length_cascade kinds, fun k s => placed_of_getElem?⟩, ?_⟩
  intro config inventory oracle roles aligner
  refine ⟨config.strategies_eq, config.strategies_eq, fun response aligned hmatched => ?_⟩
  have hindexed := DocumentAligner.indexed_ofConfig config inventory oracle roles
  obtain ⟨s, hs, hleast, hverdict⟩ := hindexed.align_eq_matched_iff.mp hmatched
  have hplace : (cascade config.views)[aligned.strategy]? = some s := config.strategies_eq ▸ hs
  exact ⟨s, hs, (placed_of_getElem? hplace).block, hleast, hverdict⟩

/-- Between two blocks for the base filler the canonical argument wins without its role, by the rule
at place 4 of the second block; the rule at place 6 of the third block is the one at place 2 without
the comparison of roles. -/
theorem cascade_stands_in_blocks_repeated_view :
    let kinds := [SpanKind.baseFiller, .canonicalArgument, .baseFiller]
    let s : Strategy :=
      { index := 26, kind := .baseFiller, predicate := .exact (.head .baseFiller) .extent }
    let span : Span := { start := 151, stop := 159 }
    let response : Response :=
      { docId := "d", eventType := "E", role := "Origin", argument := { text := "", span },
        baseFiller := { start := 171, stop := 175 } }
    let mention := GoldMention.filler { id := ⟨"m"⟩, extent := span, role := "Place" }
    let aligner :=
      DocumentAligner.ofConfig { views := kinds } { mentions := [mention] } none .identity
    (cascade kinds)[26]? = some s ∧ Placed kinds 26 s ∧
      (∃ t, (cascade kinds)[22]? = some t ∧ t.predicate = .both s.predicate .roleMatch) ∧
      aligner.align response = .matched { mention := ⟨"m"⟩, scoringId := ⟨"m"⟩, strategy := 14 } ∧
      ∃ t, (cascade kinds)[14]? = some t ∧ t.kind = .canonicalArgument ∧
        aligner.matching response t ≠ [] := by
  intro kinds s span response mention aligner
  obtain ⟨hlayout, hresult⟩ := cascade_stands_in_blocks
  have hs : (cascade kinds)[26]? = some s := by decide +kernel
  have hplaced : Placed kinds 26 s := (hlayout kinds).2 26 s hs
  have halign : aligner.align response =
      .matched { mention := ⟨"m"⟩, scoringId := ⟨"m"⟩, strategy := 14 } := by decide +kernel
  obtain ⟨-, hrow, hwinner⟩ := hresult { views := kinds } { mentions := [mention] } none .identity
  obtain ⟨t, ht, hkind, -, hverdict⟩ := hwinner response _ halign
  refine ⟨hs, hplaced, hplaced.exactTwin (by decide) (by decide), halign, t, hrow ▸ ht, ?_,
    Strategy.ne_nil_of_verdict hverdict⟩
  exact (Option.some.inj hkind).symm

end MentionAlign
