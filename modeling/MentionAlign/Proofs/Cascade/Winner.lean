import MentionAlign.Proofs.Cascade.Unmatched
import MentionAlign.Proofs.Head.Resolution
import Mathlib.Tactic.IntervalCases

/-!
# What the winning rule tells

The winner's place in its block of ten rules says more than what its rule checks: every rule before
it in the block has failed, on every mention of the inventory.  `Sight.FirstAt` is this fact about
one mention, and two consequences are drawn from it.

* `align_gated_iff_roles_agree`: a rule without the role check has a twin with the role check before
  it, so it can only win on mentions whose roles differ.  Comparing roles is then the same as having
  equal roles.
* `align_cross_rule_needs_heads`: the rules that compare a head with an extent have nothing left to
  find unless both heads differ from their spans, because one of the two straight rules comes first.
-/

namespace MentionAlign

namespace Sight

/-- The rule at the place passes, and no rule before it in the block does. -/
structure FirstAt (s : Sight) (place : Nat) : Prop where
  passes : s.verdicts[place]? = some true
  least : ∀ r < place, s.verdicts[r]? = some false

end Sight

/-- The places of the rules that compare roles. -/
theorem isRoleGated_iff_place {kind : SpanKind} {place : Nat} {p : Predicate}
    (hp : (rules kind)[place]? = some p) : p.isRoleGated = true ↔ place < 4 ∨ place = 8 := by
  have hplace : place < 10 := (List.getElem?_eq_some_iff.mp hp).1
  interval_cases place <;> obtain rfl := Option.some.inj hp <;>
    simp [Predicate.gated, Predicate.isRoleGated, containmentRule]

namespace Sight

variable {s : Sight} {kind : SpanKind} {place : Nat} {p : Predicate}

/-- A rule that compares roles passes only where they agree. -/
theorem rolesAgree_of_passes (hplace : place < 4 ∨ place = 8)
    (hpasses : s.verdicts[place]? = some true) : s.rolesAgree = true := by
  have hlt : place < 9 := by omega
  interval_cases place <;> simp_all [verdicts, exactVerdicts]

/-- **The stricter twin.**  Where roles agree, a rule that does not compare them passes only if an
earlier rule of the block passes too. -/
theorem exists_twin_of_passes (hplace : ¬ (place < 4 ∨ place = 8))
    (hpasses : s.verdicts[place]? = some true) (hroles : s.rolesAgree = true) :
    ∃ r < place, s.verdicts[r]? = some true := by
  have hlt : place < 10 := (List.getElem?_eq_some_iff.mp hpasses).1
  -- the four exact twins stand four places earlier, the containment twin one
  by_cases hlast : place = 9
  · subst hlast
    exact ⟨8, by omega, by simpa [verdicts, exactVerdicts, hroles] using hpasses⟩
  · refine ⟨place - 4, by omega, ?_⟩
    interval_cases place <;> simp_all [verdicts, exactVerdicts]

/-- At the first rule that passes, roles agree exactly when the rule compares them. -/
theorem FirstAt.rolesAgree_eq (h : s.FirstAt place) (hp : (rules kind)[place]? = some p) :
    s.rolesAgree = p.isRoleGated := by
  rw [Bool.eq_iff_iff, isRoleGated_iff_place hp]
  constructor
  · intro hroles
    by_contra hfree
    obtain ⟨r, hr, htwin⟩ := exists_twin_of_passes hfree h.passes hroles
    rw [h.least r hr] at htwin
    cases htwin
  · intro hgated
    exact rolesAgree_of_passes hgated h.passes

/-- A rule that compares a head with an extent is the first one to pass only behind the two rules
that compare spans with extents and heads with heads. -/
theorem FirstAt.crossed (h : s.FirstAt place) (hplace : place ∈ [2, 3, 6, 7]) :
    (s.head == s.extent ∨ s.span == s.goldHead) ∧ ¬ s.span == s.extent ∧
      ¬ s.head == s.goldHead := by
  obtain ⟨hpasses, hleast⟩ := h
  simp only [List.mem_cons, List.not_mem_nil, or_false] at hplace
  rcases hplace with rfl | rfl | rfl | rfl
  -- with roles the two rules stand at places 0 and 1, without them at places 4 and 5
  · have hspan := hleast 0 (by omega)
    have hhead := hleast 1 (by omega)
    simp_all [verdicts, exactVerdicts]
  · have hspan := hleast 0 (by omega)
    have hhead := hleast 1 (by omega)
    simp_all [verdicts, exactVerdicts]
  · have hspan := hleast 4 (by omega)
    have hhead := hleast 5 (by omega)
    simp_all [verdicts, exactVerdicts]
  · have hspan := hleast 4 (by omega)
    have hhead := hleast 5 (by omega)
    simp_all [verdicts, exactVerdicts]

/-- **Crossed rules need two heads.**  Where a rule that compares a head with an extent is the first
one to pass, both heads differ from their spans. -/
theorem FirstAt.heads_differ (h : s.FirstAt place) (hplace : place ∈ [2, 3, 6, 7]) :
    ¬ s.head == s.span ∧ ¬ s.goldHead == s.extent := by
  obtain ⟨hcross, hspan, hhead⟩ := h.crossed hplace
  simp only [Span.beq_iff] at hcross hspan hhead ⊢
  omega

end Sight

section Setup

variable {config : Config} {inventory : Inventory} {oracle : Option HeadOracle} {roles : RoleMap}
  {response : Response} {aligned : AlignedMention}

/-- The verdict at a place is that of the rule at the place. -/
theorem getElem?_verdicts {kind : SpanKind} {m : GoldMention} {ctx : MatchContext} {place : Nat}
    {p : Predicate} (hp : (rules kind)[place]? = some p) :
    (kind.sight response m ctx).verdicts[place]? = some (p.holds response m ctx) := by
  rw [← holds_rules, List.getElem?_map, hp]
  rfl

/-- **The winner in its block.**  Each mention that satisfies the winning strategy passes its rule
and none of the rules before it in the block. -/
theorem exists_winner_of_matched
    (h : (DocumentAligner.ofConfig config inventory oracle roles).align response =
      .matched aligned) :
    let aligner := DocumentAligner.ofConfig config inventory oracle roles
    ∃ s winner others, config.strategies[aligned.strategy]? = some s ∧
      config.views[aligned.strategy / 10]? = some s.kind ∧
      (rules s.kind)[aligned.strategy % 10]? = some s.predicate ∧
      aligner.matching response s = winner :: others ∧ aligned.mention = winner.id ∧
      ∀ m ∈ aligner.matching response s,
        (s.kind.sight response m aligner.ctx).FirstAt (aligned.strategy % 10) := by
  intro aligner
  have hindexed := DocumentAligner.indexed_ofConfig config inventory oracle roles
  obtain ⟨s, hs, hleast, hverdict⟩ := hindexed.align_eq_matched_iff.mp h
  obtain ⟨winner, others, hmatching, haligned⟩ := Strategy.verdict_eq_some_iff.mp hverdict
  have hplace : (cascade config.views)[aligned.strategy]? = some s := config.strategies_eq ▸ hs
  obtain ⟨_, hkind, hrule⟩ := getElem?_cascade_eq_some_iff.mp hplace
  refine ⟨s, winner, others, hs, hkind, hrule, hmatching, by rw [haligned], ?_⟩
  intro m hm
  obtain ⟨hmem, hholds⟩ := List.mem_filter.mp hm
  refine ⟨?_, ?_⟩
  · rw [getElem?_verdicts hrule]
    exact congrArg some hholds
  · intro r hr
    -- the strategy at that place of the winner's block comes before the winner
    obtain ⟨p, hp, hearlier⟩ := exists_rule_at hkind (r := r) (by omega)
    have hnil := hleast (10 * (aligned.strategy / 10) + r) (by omega) _
      (config.strategies_eq.symm ▸ hearlier)
    have hfails := List.filter_eq_nil_iff.mp hnil m hmem
    rw [getElem?_verdicts hp]
    exact congrArg some (Bool.eq_false_iff.mpr hfails)

/-- A mention whose head or extent differs from its extent is an entity mention with such a head. -/
theorem exists_head_of_headOrExtent_ne {m : GoldMention} (h : ¬ m.headOrExtent == m.extent) :
    ∃ e head, m = .entity e ∧ e.head = some head ∧ ¬ head == e.extent := by
  cases m with
  | filler f => exact absurd (Span.beq_self f.extent) h
  | entity e =>
      cases hhead : e.head with
      | none =>
          rw [GoldMention.headOrExtent, GoldMention.head?, hhead] at h
          exact absurd (Span.beq_self e.extent) h
      | some head =>
          rw [GoldMention.headOrExtent, GoldMention.head?, hhead] at h
          exact ⟨e, head, rfl, hhead, h⟩

end Setup

/-- **Winning by a rule that compares roles means that roles agree.**  A match comes from such a
rule exactly when the response role is the counterpart of the role of the mention that it names.
All mentions that satisfy the winning strategy are alike in this: either the roles of all of them
agree with the response, or those of none. -/
theorem align_gated_iff_roles_agree (config : Config) (inventory : Inventory)
    (oracle : Option HeadOracle) (roles : RoleMap) (response : Response) (aligned : AlignedMention)
    (h : (DocumentAligner.ofConfig config inventory oracle roles).align response =
      .matched aligned) :
    let aligner := DocumentAligner.ofConfig config inventory oracle roles
    ∃ s winner others, config.strategies[aligned.strategy]? = some s ∧
      aligner.matching response s = winner :: others ∧ aligned.mention = winner.id ∧
      (s.predicate.isRoleGated = true ↔ roles winner.role = some response.role) ∧
      ((s.predicate.isRoleGated = true ∧
          ∀ m ∈ aligner.matching response s, roles m.role = some response.role) ∨
        (s.predicate.isRoleGated = false ∧
          ∀ m ∈ aligner.matching response s, roles m.role ≠ some response.role)) := by
  intro aligner
  obtain ⟨s, winner, others, hs, _, hrule, hmatching, hmention, hfirst⟩ :=
    exists_winner_of_matched h
  have hroles : ∀ m ∈ aligner.matching response s,
      (s.predicate.isRoleGated = true ↔ roles m.role = some response.role) := by
    intro m hm
    rw [← (hfirst m hm).rolesAgree_eq hrule]
    exact beq_iff_eq
  refine ⟨s, winner, others, hs, hmatching, hmention, ?_, ?_⟩
  · exact hroles winner (hmatching ▸ List.mem_cons_self)
  · cases hgated : s.predicate.isRoleGated with
    | true => exact Or.inl ⟨rfl, fun m hm => (hroles m hm).mp hgated⟩
    | false =>
        refine Or.inr ⟨rfl, fun m hm hagree => ?_⟩
        rw [(hroles m hm).mpr hagree] at hgated
        cases hgated

/-- Of two mentions over the extent of the response one has a role with another counterpart and one
a role without any, and the mention with the right role lies elsewhere: the match comes from the
first role-free rule, and the roles of neither mention agree. -/
theorem align_gated_iff_victim_and_place :
    let span : Span := { start := 3, stop := 11 }
    let response : Response :=
      { docId := "d", eventType := "E", role := "Attacker", argument := { text := "they", span } }
    let mention := fun id role extent => GoldMention.filler { id := ⟨id⟩, extent, role }
    let mentions := [mention "v" "victim" span, mention "p" "place" span,
      mention "a" "agent" { start := 12, stop := 14 }]
    let table := RoleTable.ofList [("agent", "Attacker"), ("victim", "Victim")]
    let aligner := DocumentAligner.ofConfig .standard { mentions } none table.toMap
    ∃ aligned s, aligner.align response = .matched aligned ∧ aligned.strategy = 4 ∧
      Config.standard.strategies[4]? = some s ∧ s.predicate.isRoleGated = false ∧
      (aligner.matching response s).length = 2 ∧
      ∀ m ∈ aligner.matching response s, table.toMap m.role ≠ some response.role := by
  intro span response mention mentions table aligner
  let found : AlignedMention :=
    { mention := ⟨"v"⟩, scoringId := ⟨"v"⟩, strategy := 4
      ambiguity := some {
        responseId := "d/E/Attacker/3-11/3-11/Actual"
        candidates := [⟨⟨"v"⟩, ⟨"v"⟩⟩, ⟨⟨"p"⟩, ⟨"p"⟩⟩] } }
  have halign : aligner.align response = .matched found := by decide +kernel
  obtain ⟨s, _, _, hs, _, _, _, huniform⟩ :=
    align_gated_iff_roles_agree .standard { mentions } none table.toMap response found halign
  have hplace : Config.standard.strategies[4]? = some s := hs
  obtain rfl := Option.some.inj hplace
  rcases huniform with ⟨hgated, _⟩ | ⟨hfree, hroles⟩
  · cases hgated
  · exact ⟨found, _, halign, rfl, rfl, hfree, by decide +kernel, hroles⟩

/-- **When crossed rules can win at all.**  A rule that compares a head with an extent wins only if
the head of its view differs from the plain span, and each mention that satisfies it is an entity
mention with an annotated head that differs from its extent.  So without an oracle, without head
relaxation, with an oracle that never answers or without annotated heads, the winner stands at one
of the other six places of its block. -/
theorem align_cross_rule_needs_heads (config : Config) (inventory : Inventory)
    (oracle : Option HeadOracle) (roles : RoleMap) (response : Response) (aligned : AlignedMention)
    (h : (DocumentAligner.ofConfig config inventory oracle roles).align response =
      .matched aligned) :
    let aligner := DocumentAligner.ofConfig config inventory oracle roles
    let heads := if config.relaxWithHeads then oracle else none
    ∃ s winner others, config.strategies[aligned.strategy]? = some s ∧
      config.views[aligned.strategy / 10]? = some s.kind ∧
      aligner.matching response s = winner :: others ∧
      (aligned.strategy % 10 ∈ [2, 3, 6, 7] →
        ¬ (s.kind.extract response).resolve heads == s.kind.extract response ∧
        ∀ m ∈ aligner.matching response s,
          ∃ e head, m = .entity e ∧ e.head = some head ∧ ¬ head == e.extent) ∧
      ((oracle = none ∨ config.relaxWithHeads = false ∨ (∀ o ∈ oracle, ∀ span, o span = none) ∨
          ∀ m ∈ inventory.mentions, m.head? = none) →
        aligned.strategy % 10 ∈ [0, 1, 4, 5, 8, 9]) := by
  intro aligner heads
  obtain ⟨s, winner, others, hs, hkind, _, hmatching, _, hfirst⟩ := exists_winner_of_matched h
  have hwinner : winner ∈ aligner.matching response s := hmatching ▸ List.mem_cons_self
  have hcrossed : aligned.strategy % 10 ∈ [2, 3, 6, 7] →
      ¬ (s.kind.extract response).resolve heads == s.kind.extract response ∧
      ∀ m ∈ aligner.matching response s,
        ∃ e head, m = .entity e ∧ e.head = some head ∧ ¬ head == e.extent := by
    intro hplace
    refine ⟨((hfirst winner hwinner).heads_differ hplace).1, fun m hm => ?_⟩
    exact exists_head_of_headOrExtent_ne ((hfirst m hm).heads_differ hplace).2
  refine ⟨s, winner, others, hs, hkind, hmatching, hcrossed, ?_⟩
  intro hbare
  by_contra hother
  have hplace : aligned.strategy % 10 ∈ [2, 3, 6, 7] := by
    simp only [List.mem_cons, List.not_mem_nil, or_false] at hother ⊢
    omega
  obtain ⟨hhead, hmentions⟩ := hcrossed hplace
  have hplain : (∀ o ∈ heads, ∀ span, o span = none) →
      (s.kind.extract response).resolve heads = s.kind.extract response := by
    intro hsilent
    cases hheads : heads with
    | none => rfl
    | some o => exact Span.resolve_of_eq_none (hsilent o hheads _)
  have hsome : ¬ ∀ o ∈ heads, ∀ span, o span = none := by
    intro hsilent
    rw [hplain hsilent] at hhead
    exact hhead (Span.beq_self _)
  rcases hbare with hnone | hrelax | hsilent | hgold
  · exact hsome (by simp [heads, hnone])
  · exact hsome (by simp [heads, hrelax])
  · refine hsome fun o ho => hsilent o ?_
    cases hrelax : config.relaxWithHeads <;> simp_all [heads]
  · obtain ⟨e, head, rfl, hannotated, _⟩ := hmentions winner hwinner
    have hnone := hgold _ (List.mem_filter.mp hwinner).1
    rw [GoldMention.head?, hannotated] at hnone
    cases hnone

/-- The head of the response span is the extent of a mention whose own head is shorter: the third
rule wins, and both heads differ from their spans. -/
theorem align_cross_rule_needs_heads_inner_extent :
    let span : Span := { start := 21, stop := 39 }
    let extent : Span := { start := 25, stop := 31 }
    let head : Span := { start := 29, stop := 31 }
    let response : Response :=
      { docId := "d", eventType := "E", role := "Victim", argument := { text := "", span } }
    let mention := GoldMention.entity
      { id := ⟨"m"⟩, entity := "E1", extent, head, role := "Victim" }
    let table := HeadOracle.ofPairs [(span, extent)]
    let aligner :=
      DocumentAligner.ofConfig .standard { mentions := [mention] } (some table) .identity
    aligner.align response = .matched { mention := ⟨"m"⟩, scoringId := ⟨"E1"⟩, strategy := 2 } ∧
      ¬ span.resolve table == span ∧ ¬ head == extent := by
  intro span extent head response mention table aligner
  have halign : aligner.align response =
      .matched { mention := ⟨"m"⟩, scoringId := ⟨"E1"⟩, strategy := 2 } := by decide +kernel
  obtain ⟨s, winner, others, _, hkind, hmatching, hcrossed, _⟩ :=
    align_cross_rule_needs_heads .standard { mentions := [mention] } (some table) .identity response
      _ halign
  obtain ⟨hresolved, hmentions⟩ := hcrossed (by decide)
  have hwinner : winner ∈ aligner.matching response s := hmatching ▸ List.mem_cons_self
  obtain ⟨e, annotated, hentity, hhead, hdiffer⟩ := hmentions winner hwinner
  obtain rfl := List.mem_singleton.mp (List.mem_filter.mp hwinner).1
  obtain rfl := GoldMention.entity.inj hentity
  obtain rfl := Option.some.inj hhead
  have hview : SpanKind.canonicalArgument = s.kind := Option.some.inj hkind
  rw [← hview] at hresolved
  exact ⟨halign, hresolved, hdiffer⟩

end MentionAlign
