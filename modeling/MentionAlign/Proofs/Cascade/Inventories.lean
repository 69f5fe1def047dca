import MentionAlign.Proofs.Cascade.Rank

/-!
# One response against several inventories

The mentions of an inventory pass or fail a strategy one by one, so the matches of two inventories
put together are the matches of the first and then those of the second.  Two consequences are drawn
here.

* `align_append_inventories`: aligning against two inventories in a row is decided by the half whose
  strategy comes first; at equal strategies the first half names the mention and both halves the
  ambiguity.
* `align_eq_up_to_ties`: the order of an inventory decides nothing but ties.  Neither the winning
  strategy nor the presence of an ambiguity depends on it, and a scoring unit without rivals stays.
-/

namespace MentionAlign

namespace Ambiguity

variable {id : String} {mentions others : List GoldMention}

/-- Whether mentions are ambiguous does not depend on their order. -/
theorem among_isSome_of_perm (h : mentions.Perm others) :
    (among id mentions).isSome ↔ (among id others).isSome := by
  simp only [among_isSome_iff, h.mem_iff]

/-- Mentions without an ambiguity belong to one scoring unit. -/
theorem scoringId_eq_of_among_eq_none (h : among id mentions = none) {m n : GoldMention}
    (hm : m ∈ mentions) (hn : n ∈ mentions) : m.scoringId = n.scoringId := by
  by_contra hne
  have hsome : (among id mentions).isSome := among_isSome_iff.mpr ⟨m, hm, n, hn, hne⟩
  rw [h] at hsome
  exact absurd hsome (by simp)

end Ambiguity

section Setup

variable {config : Config} {oracle : Option HeadOracle} {roles : RoleMap} {response : Response}
  {X Y Z : Inventory} {s : Strategy}

/-- The matches of two inventories put together are those of the first and then of the second. -/
theorem matching_append (X Y : Inventory) (s : Strategy) :
    (DocumentAligner.ofConfig config { mentions := X.mentions ++ Y.mentions } oracle roles).matching
        response s =
      (DocumentAligner.ofConfig config X oracle roles).matching response s ++
        (DocumentAligner.ofConfig config Y oracle roles).matching response s :=
  List.filter_append ..

/-- An inventory that holds all mentions of another has at least its matches. -/
theorem matching_ne_nil_of_subset (hsub : X.mentions ⊆ Z.mentions)
    (h : (DocumentAligner.ofConfig config X oracle roles).matching response s ≠ []) :
    (DocumentAligner.ofConfig config Z oracle roles).matching response s ≠ [] := by
  obtain ⟨m, hm⟩ := List.exists_mem_of_ne_nil _ h
  obtain ⟨hmem, hholds⟩ := List.mem_filter.mp hm
  exact List.ne_nil_of_mem (List.mem_filter.mpr ⟨hsub hmem, hholds⟩)

/-- The matches of reordered inventories are reordered. -/
theorem matching_perm (h : X.mentions.Perm Y.mentions) (s : Strategy) :
    ((DocumentAligner.ofConfig config X oracle roles).matching response s).Perm
      ((DocumentAligner.ofConfig config Y oracle roles).matching response s) :=
  h.filter _

/-- A tie between two inventories: the first one names the mention, and both of them the
ambiguity. -/
theorem align_append_of_tie {x y : AlignedMention}
    (hx : (DocumentAligner.ofConfig config X oracle roles).align response = .matched x)
    (hy : (DocumentAligner.ofConfig config Y oracle roles).align response = .matched y)
    (htie : x.strategy = y.strategy) :
    ∃ s, config.strategies[x.strategy]? = some s ∧
      (DocumentAligner.ofConfig config { mentions := X.mentions ++ Y.mentions } oracle roles).align
          response =
        .matched { x with
          ambiguity := Ambiguity.among response.uniqueId
            ((DocumentAligner.ofConfig config X oracle roles).matching response s ++
              (DocumentAligner.ofConfig config Y oracle roles).matching response s) } := by
  have hindexed := DocumentAligner.indexed_ofConfig config
  obtain ⟨s, hs, hleastX, hverdict⟩ := (hindexed X oracle roles).align_eq_matched_iff.mp hx
  obtain ⟨_, _, hleastY, _⟩ := (hindexed Y oracle roles).align_eq_matched_iff.mp hy
  obtain ⟨first, rest, hfirst, hx⟩ := Strategy.verdict_eq_some_iff.mp hverdict
  refine ⟨s, hs, (hindexed _ oracle roles).align_eq_matched_iff.mpr ⟨s, hs, ?_, ?_⟩⟩
  · intro j hj t ht
    rw [matching_append, hleastX j hj t ht, hleastY j (htie ▸ hj) t ht, List.append_nil]
  · rw [matching_append]
    apply Strategy.verdict_eq_some_iff.mpr
    refine ⟨first, rest ++ (DocumentAligner.ofConfig config Y oracle roles).matching response s,
      by rw [hfirst, List.cons_append], ?_⟩
    rw [hx]

end Setup

/-- **Alignment composes over inventories.**  Against two inventories in a row the half with the
earlier strategy decides; at equal strategies the mention is that of the first half, and the
ambiguity is there exactly when the matches of both halves belong to several scoring units, and
names the candidates of both.  More mentions, wherever they stand, never lose a match nor move it to
a later strategy. -/
theorem align_append_inventories (config : Config) (oracle : Option HeadOracle) (roles : RoleMap)
    (response : Response) :
    let aligner := fun inventory => DocumentAligner.ofConfig config inventory oracle roles
    let align := fun inventory => (aligner inventory).align response
    (∀ X Y : Inventory,
      let joined : Inventory := { mentions := X.mentions ++ Y.mentions }
      ((align X).rank < (align Y).rank → align joined = align X) ∧
      ((align Y).rank < (align X).rank → align joined = align Y) ∧
      (align X = .unmatched → align Y = .unmatched → align joined = .unmatched) ∧
      ∀ x y, align X = .matched x → align Y = .matched y → x.strategy = y.strategy →
        ∃ s ambiguity, config.strategies[x.strategy]? = some s ∧
          align joined = .matched { x with ambiguity } ∧
          let found := (aligner X).matching response s ++ (aligner Y).matching response s
          (ambiguity.isSome ↔ ∃ m ∈ found, ∃ n ∈ found, m.scoringId ≠ n.scoringId) ∧
          ∀ a ∈ ambiguity, a.responseId = response.uniqueId ∧
            a.candidates = ((aligner X).matching response s).map Candidate.ofMention ++
              ((aligner Y).matching response s).map Candidate.ofMention) ∧
    ∀ X Z : Inventory, X.mentions ⊆ Z.mentions → ∀ x, align X = .matched x →
      ∃ z, align Z = .matched z ∧ z.strategy ≤ x.strategy := by
  intro aligner align
  have hindexed : ∀ inventory, (aligner inventory).Indexed :=
    fun inventory => DocumentAligner.indexed_ofConfig config inventory oracle roles
  constructor
  · intro X Y joined
    refine ⟨?_, ?_, ?_, ?_⟩
    · intro hlt
      refine (hindexed X).align_eq_of_matching_eq rfl fun i s hs hi => ?_
      have hnone := (hindexed Y).matching_eq_nil_of_lt_rank hs (lt_of_le_of_lt hi hlt)
      exact (matching_append X Y s).trans (by rw [hnone, List.append_nil])
    · intro hlt
      refine (hindexed Y).align_eq_of_matching_eq rfl fun i s hs hi => ?_
      have hnone := (hindexed X).matching_eq_nil_of_lt_rank hs (lt_of_le_of_lt hi hlt)
      exact (matching_append X Y s).trans (by rw [hnone, List.nil_append])
    · intro hx hy
      apply DocumentAligner.search_eq_unmatched_iff.mpr
      intro s hs
      have hnoneX := DocumentAligner.search_eq_unmatched_iff.mp hx s hs
      have hnoneY := DocumentAligner.search_eq_unmatched_iff.mp hy s hs
      exact (matching_append X Y s).trans (List.append_eq_nil_iff.mpr ⟨hnoneX, hnoneY⟩)
    · intro x y hx hy htie
      obtain ⟨s, hs, hjoined⟩ := align_append_of_tie hx hy htie
      refine ⟨s, _, hs, hjoined, Ambiguity.among_isSome_iff, ?_⟩
      intro a ha
      rw [Ambiguity.eq_of_among_eq_some ha, ← List.map_append]
      exact ⟨rfl, rfl⟩
  · intro X Z hsub x hx
    obtain ⟨s, hs, _, hverdict⟩ := (hindexed X).align_eq_matched_iff.mp hx
    have hmatch := matching_ne_nil_of_subset hsub (Strategy.ne_nil_of_verdict hverdict)
    exact (hindexed Z).exists_matched_of_matching_ne_nil hs hmatch

/-- Two mentions of different entities over one extent: neither is ambiguous by itself, and both
together are. -/
theorem align_append_two_entities :
    let span : Span := { start := 10, stop := 20 }
    let response : Response :=
      { docId := "d", eventType := "E", role := "Agent", argument := { text := "he", span } }
    let mention := fun id entity =>
      GoldMention.entity { id := ⟨id⟩, entity, extent := span, role := "Agent" }
    let align := fun mentions =>
      (DocumentAligner.ofConfig .standard { mentions } none .identity).align response
    let found : AlignedMention := { mention := ⟨"a"⟩, scoringId := ⟨"E1"⟩, strategy := 0 }
    let other : AlignedMention := { mention := ⟨"b"⟩, scoringId := ⟨"E2"⟩, strategy := 0 }
    align [mention "a" "E1"] = .matched found ∧ align [mention "b" "E2"] = .matched other ∧
      ∃ ambiguity, ambiguity.isSome ∧
        align [mention "a" "E1", mention "b" "E2"] = .matched { found with ambiguity } := by
  intro span response mention align found other
  have hfound : align [mention "a" "E1"] = .matched found := by decide +kernel
  have hother : align [mention "b" "E2"] = .matched other := by decide +kernel
  refine ⟨hfound, hother, ?_⟩
  obtain ⟨s, ambiguity, hs, hjoined, hambiguous, _⟩ :=
    ((align_append_inventories .standard none .identity response).1
      { mentions := [mention "a" "E1"] } { mentions := [mention "b" "E2"] }).2.2.2
      found other hfound hother rfl
  refine ⟨ambiguity, hambiguous.mpr ?_, hjoined⟩
  obtain rfl := Option.some.inj hs
  refine ⟨mention "a" "E1", List.mem_append_left _ ?_, mention "b" "E2",
    List.mem_append_right _ ?_, ?_⟩
  · refine List.mem_filter.mpr ⟨List.mem_singleton_self _, ?_⟩
    decide +kernel
  · refine List.mem_filter.mpr ⟨List.mem_singleton_self _, ?_⟩
    decide +kernel
  · decide

/-- **The order of an inventory breaks ties only.**  Against a reordered inventory there is no match
again, or a match by the same strategy, ambiguous or not as before, with the same matches in another
order; and without an ambiguity the scoring unit is the same. -/
theorem align_eq_up_to_ties (config : Config) (oracle : Option HeadOracle) (roles : RoleMap)
    (response : Response) (X Y : Inventory) (hperm : X.mentions.Perm Y.mentions) :
    let aligner := fun inventory => DocumentAligner.ofConfig config inventory oracle roles
    ((aligner X).align response = .unmatched ∧ (aligner Y).align response = .unmatched) ∨
    ∃ x y s, (aligner X).align response = .matched x ∧ (aligner Y).align response = .matched y ∧
      x.strategy = y.strategy ∧ config.strategies[x.strategy]? = some s ∧
      (x.ambiguity.isSome ↔ y.ambiguity.isSome) ∧
      ((aligner X).matching response s).Perm ((aligner Y).matching response s) ∧
      (∀ a ∈ x.ambiguity, ∀ b ∈ y.ambiguity,
        a.responseId = b.responseId ∧ a.candidates.Perm b.candidates) ∧
      (x.ambiguity = none → x.scoringId = y.scoringId) := by
  intro aligner
  have hindexed : ∀ inventory, (aligner inventory).Indexed :=
    fun inventory => DocumentAligner.indexed_ofConfig config inventory oracle roles
  have hmatching : ∀ t, ((aligner X).matching response t).Perm ((aligner Y).matching response t) :=
    matching_perm hperm
  cases hx : (aligner X).align response with
  | unmatched =>
      have hnone : ∀ t ∈ config.strategies, (aligner X).matching response t = [] :=
        DocumentAligner.search_eq_unmatched_iff.mp hx
      refine Or.inl ⟨rfl, DocumentAligner.search_eq_unmatched_iff.mpr fun t ht => ?_⟩
      exact (hnone t ht ▸ hmatching t).symm.eq_nil
  | matched x =>
      obtain ⟨s, hs, hleast, hverdict⟩ := (hindexed X).align_eq_matched_iff.mp hx
      obtain ⟨m, restX, hX, rfl⟩ := Strategy.verdict_eq_some_iff.mp hverdict
      -- the mention named against either inventory is among the matches against the other
      have hm : m ∈ (aligner Y).matching response s :=
        (hmatching s).mem_iff.mp (hX ▸ List.mem_cons_self)
      obtain ⟨n, restY, hY⟩ := List.exists_cons_of_ne_nil (List.ne_nil_of_mem hm)
      have hn : n ∈ (aligner X).matching response s :=
        (hmatching s).mem_iff.mpr (hY ▸ List.mem_cons_self)
      have hy : (aligner Y).align response = .matched
          { mention := n.id, scoringId := n.scoringId, strategy := s.index,
            ambiguity := Ambiguity.among response.uniqueId ((aligner Y).matching response s) } := by
        apply (hindexed Y).align_eq_matched_iff.mpr
        refine ⟨s, hs, ?_, Strategy.verdict_eq_some_iff.mpr ⟨n, restY, hY, rfl⟩⟩
        intro j hj t ht
        exact (hleast j hj t ht ▸ hmatching t).symm.eq_nil
      refine Or.inr ⟨_, _, s, rfl, hy, rfl, hs, ?_, hmatching s, ?_, ?_⟩
      · exact Ambiguity.among_isSome_of_perm (hmatching s)
      · intro a ha b hb
        rw [Ambiguity.eq_of_among_eq_some ha, Ambiguity.eq_of_among_eq_some hb]
        exact ⟨rfl, (hmatching s).map _⟩
      · intro hnone
        exact Ambiguity.scoringId_eq_of_among_eq_none hnone (hX ▸ List.mem_cons_self) hn

/-- Of two coreferent mentions over one extent the one that comes first is named, and the scoring
unit is that of both. -/
theorem align_eq_up_to_ties_coreferent :
    let span : Span := { start := 10, stop := 20 }
    let response : Response :=
      { docId := "d", eventType := "E", role := "Agent", argument := { text := "he", span } }
    let mention := fun id =>
      GoldMention.entity { id := ⟨id⟩, entity := "E1", extent := span, role := "Agent" }
    let align := fun mentions =>
      (DocumentAligner.ofConfig .standard { mentions } none .identity).align response
    [mention "a", mention "b"].Perm [mention "b", mention "a"] ∧
    ∃ x y, align [mention "a", mention "b"] = .matched x ∧
      align [mention "b", mention "a"] = .matched y ∧
      x.mention ≠ y.mention ∧ x.strategy = y.strategy ∧ x.scoringId = y.scoringId := by
  intro span response mention align
  have hperm : [mention "a", mention "b"].Perm [mention "b", mention "a"] := .swap _ _ _
  refine ⟨hperm, ?_⟩
  have hforth : align [mention "a", mention "b"] =
      .matched { mention := ⟨"a"⟩, scoringId := ⟨"E1"⟩, strategy := 0 } := by decide +kernel
  have hback : align [mention "b", mention "a"] =
      .matched { mention := ⟨"b"⟩, scoringId := ⟨"E1"⟩, strategy := 0 } := by decide +kernel
  rcases align_eq_up_to_ties .standard none .identity response
    { mentions := [mention "a", mention "b"] } { mentions := [mention "b", mention "a"] } hperm with
    ⟨hnone, _⟩ | ⟨x, y, s, hx, hy, hstrategy, _, _, _, _, hunit⟩
  · exact absurd (hforth.symm.trans hnone) (by simp)
  · obtain rfl := Alignment.matched.inj (hforth.symm.trans hx)
    obtain rfl := Alignment.matched.inj (hback.symm.trans hy)
    exact ⟨_, _, hforth, hback, by decide, hstrategy, hunit rfl⟩

end MentionAlign
