import MentionAlign.Proofs.Cascade.Rank
import MentionAlign.Proofs.Cascade.Sight

/-!
# The cascade in blocks

A cascade is laid out in blocks of ten rules, one block for each span kind of its list.  This file
says where a strategy stands (`getElem?_cascade_eq_some_iff`), what putting two lists behind each
other does to a run (`align_append_views`), and that a block has nothing left to find when an
earlier one shows the same spans (`not_agree_of_earlier_block`).

The steps are about the row of strategies: the cascade of an append is the first cascade and then
the second one with its positions moved up, a walk over an append hands over from the first part to
the second, and moving positions up changes nothing else in the outcome.
-/

namespace MentionAlign

/-- The same strategy, so many positions further down. -/
def Strategy.shift (n : Nat) (s : Strategy) : Strategy := { s with index := s.index + n }

/-- The same match by a strategy so many positions further down. -/
def AlignedMention.shift (n : Nat) (a : AlignedMention) : AlignedMention :=
  { a with strategy := a.strategy + n }

/-- The same outcome with the winning strategy so many positions further down. -/
def Alignment.shift (n : Nat) : Alignment → Alignment
  | .matched aligned => .matched (aligned.shift n)
  | .unmatched => .unmatched

section Layout

/-- The rules of each span kind, in order, without their positions. -/
private def layout (kinds : List SpanKind) : List (SpanKind × Predicate) :=
  kinds.flatMap fun kind => (rules kind).map fun p => (kind, p)

private theorem layout_cons (kind : SpanKind) (kinds : List SpanKind) :
    layout (kind :: kinds) = (rules kind).map (fun p => (kind, p)) ++ layout kinds := rfl

private theorem length_layout (kinds : List SpanKind) :
    (layout kinds).length = 10 * kinds.length := by
  induction kinds with
  | nil => rfl
  | cons kind kinds ih =>
      rw [layout_cons, List.length_append, ih, List.length_map, length_rules, List.length_cons]
      omega

private theorem getElem?_layout (kinds : List SpanKind) (i : Nat) :
    (layout kinds)[i]? =
      kinds[i / 10]?.bind fun kind => (rules kind)[i % 10]?.map fun p => (kind, p) := by
  induction kinds generalizing i with
  | nil => rfl
  | cons kind kinds ih =>
      have hblock : ((rules kind).map fun p => (kind, p)).length = 10 := by simp
      rw [layout_cons]
      by_cases hi : i < 10
      · rw [List.getElem?_append_left (by omega), Nat.div_eq_of_lt hi, Nat.mod_eq_of_lt hi]
        simp
      -- behind the first block the position loses one block and keeps its place
      · have hdiv : i / 10 = (i - 10) / 10 + 1 := by omega
        have hmod : i % 10 = (i - 10) % 10 := by omega
        rw [List.getElem?_append_right (by omega), hblock, ih, hdiv, hmod, List.getElem?_cons_succ]

/-- A cascade has ten strategies for each span kind. -/
theorem length_cascade (kinds : List SpanKind) : (cascade kinds).length = 10 * kinds.length := by
  rw [cascade, List.length_mapIdx]
  exact length_layout kinds

/-- **Where a strategy stands.**  The strategy at a position carries that position, the span kind of
the block that the position falls into, and the rule at its place in the block. -/
theorem getElem?_cascade_eq_some_iff {kinds : List SpanKind} {i : Nat} {s : Strategy} :
    (cascade kinds)[i]? = some s ↔
      s.index = i ∧ kinds[i / 10]? = some s.kind ∧ (rules s.kind)[i % 10]? = some s.predicate := by
  have hlayout : (cascade kinds)[i]? = (layout kinds)[i]?.map fun rule =>
      { index := i, kind := rule.1, predicate := rule.2 } := List.getElem?_mapIdx
  rw [hlayout, getElem?_layout]
  constructor
  · intro h
    obtain ⟨rule, hrule, rfl⟩ := Option.map_eq_some_iff.mp h
    obtain ⟨kind, hkind, hplace⟩ := Option.bind_eq_some_iff.mp hrule
    obtain ⟨p, hp, rfl⟩ := Option.map_eq_some_iff.mp hplace
    exact ⟨rfl, hkind, hp⟩
  · intro h
    obtain ⟨rfl, hkind, hp⟩ := h
    rw [hkind, Option.bind_some, hp]
    rfl

/-- The checks of a cascade are the rules of its span kinds. -/
theorem map_predicate_cascade (kinds : List SpanKind) :
    (cascade kinds).map Strategy.predicate = kinds.flatMap rules := by
  have hlayout : (layout kinds).map Prod.snd = kinds.flatMap rules := by
    simp only [layout, List.map_flatMap, List.map_map, Function.comp_def, List.map_id']
  rw [← hlayout]
  apply List.ext_getElem?
  intro i
  rw [cascade, List.getElem?_map, List.getElem?_mapIdx, List.getElem?_map, Option.map_map]
  rfl

/-- Every block of a cascade has a rule at each of its ten places. -/
theorem exists_rule_at {kinds : List SpanKind} {j r : Nat} {kind : SpanKind}
    (hkind : kinds[j]? = some kind) (hr : r < 10) :
    ∃ p, (rules kind)[r]? = some p ∧
      (cascade kinds)[10 * j + r]? = some { index := 10 * j + r, kind, predicate := p } := by
  have hlt : r < (rules kind).length := by
    rw [length_rules]
    exact hr
  have hrule := List.getElem?_eq_getElem hlt
  have hdiv : (10 * j + r) / 10 = j := by omega
  have hmod : (10 * j + r) % 10 = r := by omega
  refine ⟨(rules kind)[r], hrule, ?_⟩
  rw [getElem?_cascade_eq_some_iff, hdiv, hmod]
  exact ⟨rfl, hkind, hrule⟩

/-- The cascade of two lists is the cascade of the first, and then that of the second moved up. -/
theorem cascade_append (V W : List SpanKind) :
    cascade (V ++ W) = cascade V ++ (cascade W).map (Strategy.shift (10 * V.length)) := by
  have hlayout : layout (V ++ W) = layout V ++ layout W := List.flatMap_append
  have hcascade : ∀ kinds, cascade kinds = (layout kinds).mapIdx fun i rule =>
      { index := i, kind := rule.1, predicate := rule.2 } := fun _ => rfl
  have hmoved : (cascade W).map (Strategy.shift (10 * V.length)) =
      (layout W).mapIdx fun i rule =>
        { index := i + 10 * V.length, kind := rule.1, predicate := rule.2 } := by
    apply List.ext_getElem?
    intro i
    rw [hcascade, List.getElem?_map, List.getElem?_mapIdx, List.getElem?_mapIdx, Option.map_map]
    rfl
  rw [hmoved, hcascade, hcascade, hlayout, List.mapIdx_append, length_layout]

end Layout

/-- Moving a strategy up moves its match up. -/
theorem Strategy.verdict_shift (n : Nat) (s : Strategy) (id : String)
    (mentions : List GoldMention) :
    (s.shift n).verdict id mentions = (s.verdict id mentions).map (AlignedMention.shift n) := by
  cases mentions <;> rfl

namespace DocumentAligner

/-- A walk over two rows hands over to the second one when the first one has no match. -/
theorem search_append (aligner : DocumentAligner) (response : Response)
    (first second : List Strategy) :
    (aligner.search response (first ++ second)).1 =
      match (aligner.search response first).1 with
      | .matched aligned => .matched aligned
      | .unmatched => (aligner.search response second).1 := by
  induction first with
  | nil => rfl
  | cons s rest ih =>
      rw [List.cons_append]
      cases hv : s.verdict response.uniqueId (aligner.matching response s) with
      | none =>
          have hnil := Strategy.verdict_eq_none_iff.mp hv
          rw [search_cons_of_matching_eq_nil hnil, search_cons_of_matching_eq_nil hnil, ih]
      | some aligned => rw [search_cons_of_verdict hv, search_cons_of_verdict hv]

/-- Moving a row up moves the winning strategy up. -/
theorem search_map_shift (aligner : DocumentAligner) (response : Response) (n : Nat)
    (row : List Strategy) :
    (aligner.search response (row.map (Strategy.shift n))).1 =
      (aligner.search response row).1.shift n := by
  induction row with
  | nil => rfl
  | cons s rest ih =>
      have hmatching : aligner.matching response (s.shift n) = aligner.matching response s := rfl
      have hshift := s.verdict_shift n response.uniqueId (aligner.matching response s)
      rw [List.map_cons]
      cases hv : s.verdict response.uniqueId (aligner.matching response s) with
      | none =>
          have hnil := Strategy.verdict_eq_none_iff.mp hv
          rw [search_cons_of_matching_eq_nil (hmatching.trans hnil),
            search_cons_of_matching_eq_nil hnil, ih]
      | some aligned =>
          rw [hv, Option.map_some, ← hmatching] at hshift
          rw [search_cons_of_verdict hshift, search_cons_of_verdict hv]
          rfl

end DocumentAligner

section Views

variable {config : Config} {inventory : Inventory} {oracle : Option HeadOracle} {roles : RoleMap}
  {response : Response} {relaxWithHeads : Bool} {aligned : AlignedMention} {kind earlier : SpanKind}
  {j : Nat}

/-- Aligning is a walk over the cascade of the views, also by an aligner for other views. -/
theorem align_eq_search (views others : List SpanKind) :
    (DocumentAligner.ofConfig { relaxWithHeads, views } inventory oracle roles).align response =
      ((DocumentAligner.ofConfig { relaxWithHeads, views := others } inventory oracle roles).search
        response (cascade views)).1 := by
  have hown : (DocumentAligner.ofConfig { relaxWithHeads, views } inventory oracle roles).align
      response =
      ((DocumentAligner.ofConfig { relaxWithHeads, views } inventory oracle roles).search response
        (cascade views)).1 := by
    rw [← Config.strategies_eq { relaxWithHeads, views }]
    rfl
  rw [hown]
  exact DocumentAligner.search_congr_of_reached fun _ _ _ _ => rfl

/-- A match falls into the block of one of the views. -/
theorem exists_view_of_matched
    (h : (DocumentAligner.ofConfig config inventory oracle roles).align response =
      .matched aligned) :
    ∃ kind, config.views[aligned.strategy / 10]? = some kind := by
  have hindexed := DocumentAligner.indexed_ofConfig config inventory oracle roles
  obtain ⟨s, hs, _⟩ := hindexed.align_eq_matched_iff.mp h
  have hplace : (cascade config.views)[aligned.strategy]? = some s := config.strategies_eq ▸ hs
  exact ⟨s.kind, (getElem?_cascade_eq_some_iff.mp hplace).2.1⟩

/-- **A block never wins behind one that shows the same spans.**  The rule that would win stands in
the earlier block too, and it would have won there. -/
theorem not_agree_of_earlier_block
    (h : (DocumentAligner.ofConfig config inventory oracle roles).align response = .matched aligned)
    (hkind : config.views[aligned.strategy / 10]? = some kind)
    (hj : j < aligned.strategy / 10) (hearlier : config.views[j]? = some earlier) :
    let heads := if config.relaxWithHeads then oracle else none
    ¬ (earlier.extract response == kind.extract response ∧
      (earlier.extract response).resolve heads == (kind.extract response).resolve heads) := by
  intro heads hsame
  have hindexed := DocumentAligner.indexed_ofConfig config inventory oracle roles
  obtain ⟨s, hs, hleast, hverdict⟩ := hindexed.align_eq_matched_iff.mp h
  have hplace : (cascade config.views)[aligned.strategy]? = some s := config.strategies_eq ▸ hs
  obtain ⟨_, hskind, hrule⟩ := getElem?_cascade_eq_some_iff.mp hplace
  obtain rfl : kind = s.kind := Option.some.inj (hkind.symm.trans hskind)
  obtain ⟨m, hm⟩ := List.exists_mem_of_ne_nil _ (Strategy.ne_nil_of_verdict hverdict)
  obtain ⟨hmem, hholds⟩ := List.mem_filter.mp hm
  -- the rule at the same place of the earlier block, which had no match
  obtain ⟨p, hp, hplace'⟩ := exists_rule_at hearlier (Nat.mod_lt aligned.strategy (by omega))
  have hnil := hleast (10 * j + aligned.strategy % 10) (by omega) _
    (config.strategies_eq.symm ▸ hplace')
  have hagree : (earlier.sight response m { oracle := heads, roles }).Agree
      (s.kind.sight response m { oracle := heads, roles }) :=
    { span := hsame.1, head := hsame.2, extent := Span.beq_self _, goldHead := Span.beq_self _,
      roles := rfl }
  have hverdicts := holds_eq_of_agree hagree hp hrule
  exact List.filter_eq_nil_iff.mp hnil m hmem (hverdicts.trans hholds)

end Views

/-- **Alignment composes over views.**  For two lists of views in a row the first one decides when
it has a match, and otherwise the second one does, its strategies ten positions further down for
each view of the first.  So a block never wins behind one that shows the same spans: not a repeated
view, and, where answers of the oracle depend on offsets alone, not the base filler behind a
canonical argument with its offsets.  Tables of pairs and parsed documents give such answers. -/
theorem align_append_views (inventory : Inventory) (oracle : Option HeadOracle) (roles : RoleMap)
    (relaxWithHeads : Bool) (response : Response) :
    let align := fun views =>
      (DocumentAligner.ofConfig { relaxWithHeads, views } inventory oracle roles).align response
    let heads := if relaxWithHeads then oracle else none
    (∀ V W, align (V ++ W) =
      match align V with
      | .matched aligned => .matched aligned
      | .unmatched => (align W).shift (10 * V.length)) ∧
    (∀ views aligned, align views = .matched aligned →
      ∃ kind, views[aligned.strategy / 10]? = some kind ∧
        ∀ j < aligned.strategy / 10, ∀ earlier, views[j]? = some earlier →
          ¬ (earlier.extract response == kind.extract response ∧
            (earlier.extract response).resolve heads == (kind.extract response).resolve heads) ∧
          earlier ≠ kind ∧
          ((∀ o ∈ oracle, o.ReadsOffsets) → response.argument.span == response.baseFiller →
            ¬ (earlier = .canonicalArgument ∧ kind = .baseFiller))) ∧
    (∀ pairs, (HeadOracle.ofPairs pairs).ReadsOffsets) ∧
    ∀ doc : ParsedDocument, doc.headOf.ReadsOffsets := by
  intro align heads
  refine ⟨?_, ?_, HeadOracle.readsOffsets_ofPairs, ParsedDocument.readsOffsets_headOf⟩
  · intro V W
    have hwhole : align (V ++ W) = _ := align_eq_search (V ++ W) V
    have hfirst : align V = _ := align_eq_search V V
    have hsecond : align W = _ := align_eq_search W V
    rw [hwhole, cascade_append, DocumentAligner.search_append, DocumentAligner.search_map_shift,
      ← hfirst, ← hsecond]
  · intro views aligned h
    obtain ⟨kind, hkind⟩ := exists_view_of_matched h
    refine ⟨kind, hkind, ?_⟩
    intro j hj earlier hearlier
    have hapart := not_agree_of_earlier_block h hkind hj hearlier
    refine ⟨hapart, ?_, ?_⟩
    · rintro rfl
      exact hapart ⟨Span.beq_self _, Span.beq_self _⟩
    · rintro horacle hoffsets ⟨rfl, rfl⟩
      -- without head relaxation no oracle is asked
      have hheads : ∀ o ∈ heads, o.ReadsOffsets := by
        intro o ho
        cases relaxWithHeads with
        | true => exact horacle o ho
        | false => exact absurd ho (by simp [heads])
      exact hapart ⟨hoffsets, Span.resolve_congr hheads hoffsets⟩

/-- A base filler that covers the annotated head wins by the second rule of its block: by itself
that is position 1, and behind the canonical argument position 11. -/
theorem align_append_views_base_filler :
    let response : Response :=
      { docId := "d", eventType := "E", role := "Agent",
        argument := { text := "he", span := { start := 40, stop := 41 } },
        baseFiller := { start := 14, stop := 18 } }
    let mention := GoldMention.entity
      { id := ⟨"a"⟩, entity := "E1", extent := { start := 10, stop := 24 },
        head := some { start := 14, stop := 18 }, role := "Agent" }
    let align := fun views =>
      (DocumentAligner.ofConfig { views } { mentions := [mention] } none .identity).align response
    let found : AlignedMention := { mention := ⟨"a"⟩, scoringId := ⟨"E1"⟩, strategy := 1 }
    align [.canonicalArgument] = .unmatched ∧ align [.baseFiller] = .matched found ∧
      align [.canonicalArgument, .baseFiller] = .matched { found with strategy := 11 } := by
  intro response mention align found
  have hfirst : align [.canonicalArgument] = .unmatched := by decide +kernel
  have hsecond : align [.baseFiller] = .matched found := by decide +kernel
  have hwhole : align [.canonicalArgument, .baseFiller] =
      match align [.canonicalArgument] with
      | .matched aligned => .matched aligned
      | .unmatched => (align [.baseFiller]).shift 10 :=
    (align_append_views { mentions := [mention] } none .identity true response).1
      [.canonicalArgument] [.baseFiller]
  rw [hfirst, hsecond] at hwhole
  exact ⟨hfirst, hsecond, hwhole⟩

end MentionAlign
