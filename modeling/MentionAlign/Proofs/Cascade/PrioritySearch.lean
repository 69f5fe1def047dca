import MentionAlign.Cascade.Aligner

/-!
# The priority search behind an alignment

An aligner walks its strategies and stops at the first one that any mention satisfies.  This file
says what that walk finds without mentioning the walk: the least position of the cascade whose
check some mention passes, the first such mention in inventory order, and the whole list of
mentions that pass when they belong to several scoring units.

There are three ingredients.

1.  `index_of_getElem?_cascade`: a strategy carries its own position in the cascade.
2.  `Ambiguity.among_isSome_iff`: the loop that collects distinct scoring units ends with more than
    one exactly when two of the mentions differ in their unit.
3.  `DocumentAligner.search_eq_unmatched_iff` and `search_eq_matched_iff`: what a run over a row of
    strategies returns, by induction on the row.

Together they give `align_eq_iff_prioritySearch`, which holds for every outcome and so also says
that the outcome is unique.
-/

namespace MentionAlign

/-- Each strategy of a cascade carries its own position. -/
theorem index_of_getElem?_cascade {kinds : List SpanKind} {i : Nat} {s : Strategy}
    (h : (cascade kinds)[i]? = some s) : s.index = i := by
  unfold cascade at h
  rw [List.getElem?_mapIdx] at h
  obtain ⟨rule, _, rfl⟩ := Option.map_eq_some_iff.mp h
  rfl

/-- Each strategy of a set-up carries its own position. -/
theorem index_of_getElem?_strategies {config : Config} {i : Nat} {s : Strategy}
    (h : config.strategies[i]? = some s) : s.index = i := by
  rw [config.strategies_eq] at h
  exact index_of_getElem?_cascade h

/-- More than one value is left when repetitions are dropped exactly when the list holds two
values that differ. -/
theorem one_lt_length_eraseDups_iff {α : Type} [BEq α] [LawfulBEq α] {values : List α} :
    1 < values.eraseDups.length ↔ ∃ a ∈ values, ∃ b ∈ values, a ≠ b := by
  cases values with
  | nil => simp
  | cons first rest =>
      have hlen : 1 < (first :: rest).eraseDups.length ↔
          (rest.filter fun b => !b == first).eraseDups ≠ [] := by
        rw [List.eraseDups_cons, List.length_cons, ← List.length_pos_iff]
        omega
      rw [hlen]
      constructor
      · intro hne
        obtain ⟨b, hb⟩ := List.exists_mem_of_ne_nil _ hne
        obtain ⟨hmem, hdiff⟩ := List.mem_filter.mp (List.mem_eraseDups.mp hb)
        refine ⟨first, List.mem_cons_self, b, List.mem_cons_of_mem _ hmem, ?_⟩
        intro heq
        simp [← heq] at hdiff
      · intro hdiffer hnil
        obtain ⟨a, ha, b, hb, hab⟩ := hdiffer
        have hall : ∀ x ∈ first :: rest, x = first := by
          intro x hx
          rcases List.mem_cons.mp hx with rfl | hx
          · rfl
          · by_cases heq : x = first
            · exact heq
            · have hkept : x ∈ (rest.filter fun b => !b == first).eraseDups :=
                List.mem_eraseDups.mpr (List.mem_filter.mpr ⟨hx, by simpa using heq⟩)
              rw [hnil] at hkept
              exact absurd hkept List.not_mem_nil
        exact hab ((hall a ha).trans (hall b hb).symm)

namespace Ambiguity

/-- The ambiguity of a list of mentions names all of them, in order and with repetitions. -/
theorem eq_of_among_eq_some {id : String} {mentions : List GoldMention} {a : Ambiguity}
    (h : among id mentions = some a) :
    a = { responseId := id, candidates := mentions.map Candidate.ofMention } := by
  unfold among at h
  split at h
  · exact (Option.some.inj h).symm
  · exact absurd h (by simp)

/-- Mentions are ambiguous exactly when two of them differ in their scoring unit. -/
theorem among_isSome_iff {id : String} {mentions : List GoldMention} :
    (among id mentions).isSome ↔
      ∃ m ∈ mentions, ∃ n ∈ mentions, m.scoringId ≠ n.scoringId := by
  have hunits : 1 < (scoringUnits mentions).length ↔
      ∃ m ∈ mentions, ∃ n ∈ mentions, m.scoringId ≠ n.scoringId := by
    unfold scoringUnits
    rw [one_lt_length_eraseDups_iff]
    constructor
    · intro h
      obtain ⟨_, ha, _, hb, hne⟩ := h
      obtain ⟨m, hm, rfl⟩ := List.mem_map.mp ha
      obtain ⟨n, hn, rfl⟩ := List.mem_map.mp hb
      exact ⟨m, hm, n, hn, hne⟩
    · intro h
      obtain ⟨m, hm, n, hn, hne⟩ := h
      exact ⟨_, List.mem_map_of_mem hm, _, List.mem_map_of_mem hn, hne⟩
  rw [← hunits]
  unfold among
  split <;> simp_all

end Ambiguity

namespace Strategy

/-- A strategy yields nothing exactly when no mention satisfies it. -/
theorem verdict_eq_none_iff {s : Strategy} {id : String} {mentions : List GoldMention} :
    s.verdict id mentions = none ↔ mentions = [] := by
  cases mentions <;> simp [verdict]

/-- What a strategy yields is read off its first mention, its position and its ambiguity. -/
theorem verdict_eq_some_iff {s : Strategy} {id : String} {mentions : List GoldMention}
    {aligned : AlignedMention} :
    s.verdict id mentions = some aligned ↔
      ∃ first rest, mentions = first :: rest ∧
        aligned = { mention := first.id, scoringId := first.scoringId, strategy := s.index,
                    ambiguity := Ambiguity.among id mentions } := by
  cases mentions with
  | nil => simp [verdict]
  | cons first rest => simp [verdict, eq_comm]

end Strategy

namespace DocumentAligner

variable {aligner : DocumentAligner} {response : Response}

/-- One strategy without a match hands over to the next. -/
theorem search_cons_of_matching_eq_nil {s : Strategy} {rest : List Strategy}
    (h : aligner.matching response s = []) :
    (aligner.search response (s :: rest)).1 = (aligner.search response rest).1 := by
  have hnone : s.verdict response.uniqueId (aligner.matching response s) = none :=
    Strategy.verdict_eq_none_iff.mpr h
  rw [search, hnone]

/-- One strategy with a match ends the walk. -/
theorem search_cons_of_verdict {s : Strategy} {rest : List Strategy} {aligned : AlignedMention}
    (h : s.verdict response.uniqueId (aligner.matching response s) = some aligned) :
    (aligner.search response (s :: rest)).1 = .matched aligned := by
  rw [search, h]

/-- **A walk without a match.**  Nothing is found exactly when no strategy of the row has a
match. -/
theorem search_eq_unmatched_iff {strategies : List Strategy} :
    (aligner.search response strategies).1 = .unmatched ↔
      ∀ s ∈ strategies, aligner.matching response s = [] := by
  induction strategies with
  | nil => simp [search]
  | cons s rest ih =>
      cases hv : s.verdict response.uniqueId (aligner.matching response s) with
      | none =>
          have hnil := Strategy.verdict_eq_none_iff.mp hv
          rw [search_cons_of_matching_eq_nil hnil, ih, List.forall_mem_cons]
          exact ⟨fun h => ⟨hnil, h⟩, fun h => h.2⟩
      | some aligned =>
          rw [search_cons_of_verdict hv]
          refine ⟨fun h => absurd h (by simp), fun h => ?_⟩
          rw [Strategy.verdict_eq_none_iff.mpr (h s List.mem_cons_self)] at hv
          exact absurd hv (by simp)

/-- **A walk with a match.**  The walk ends at the first strategy of the row that has a match, and
returns the verdict of that strategy. -/
theorem search_eq_matched_iff {strategies : List Strategy} {aligned : AlignedMention} :
    (aligner.search response strategies).1 = .matched aligned ↔
      ∃ (i : Nat) (s : Strategy), strategies[i]? = some s ∧
        (∀ j < i, ∀ t, strategies[j]? = some t → aligner.matching response t = []) ∧
        s.verdict response.uniqueId (aligner.matching response s) = some aligned := by
  induction strategies with
  | nil => simp [search]
  | cons s rest ih =>
      cases hv : s.verdict response.uniqueId (aligner.matching response s) with
      | none =>
          have hnil := Strategy.verdict_eq_none_iff.mp hv
          rw [search_cons_of_matching_eq_nil hnil, ih]
          constructor
          · intro h
            obtain ⟨i, t, ht, hleast, hverdict⟩ := h
            refine ⟨i + 1, t, by simpa using ht, ?_, hverdict⟩
            intro j hj u hu
            cases j with
            | zero => simp only [List.getElem?_cons_zero, Option.some.injEq] at hu
                      exact hu ▸ hnil
            | succ j => exact hleast j (by omega) u (by simpa using hu)
          · intro h
            obtain ⟨i, t, ht, hleast, hverdict⟩ := h
            cases i with
            | zero =>
                simp only [List.getElem?_cons_zero, Option.some.injEq] at ht
                rw [← ht, hv] at hverdict
                exact absurd hverdict (by simp)
            | succ i =>
                exact ⟨i, t, by simpa using ht,
                  fun j hj u hu => hleast (j + 1) (by omega) u (by simpa using hu), hverdict⟩
      | some found =>
          rw [search_cons_of_verdict hv]
          constructor
          · intro h
            have heq : found = aligned := by simpa using h
            exact ⟨0, s, rfl, fun j hj => absurd hj (Nat.not_lt_zero j), heq ▸ hv⟩
          · intro h
            obtain ⟨i, t, ht, hleast, hverdict⟩ := h
            cases i with
            | zero =>
                simp only [List.getElem?_cons_zero, Option.some.injEq] at ht
                rw [← ht, hv] at hverdict
                rw [Option.some.inj hverdict]
            | succ i =>
                rw [Strategy.verdict_eq_none_iff.mpr (hleast 0 (by omega) s rfl)] at hv
                exact absurd hv (by simp)

/-- A mention that is found is one of the inventory. -/
theorem exists_mem_of_matched {aligned : AlignedMention}
    (h : aligner.align response = .matched aligned) :
    ∃ m ∈ aligner.inventory.mentions, m.id = aligned.mention := by
  obtain ⟨_, s, _, _, hverdict⟩ := search_eq_matched_iff.mp h
  obtain ⟨first, _, hmatching, rfl⟩ := Strategy.verdict_eq_some_iff.mp hverdict
  have hfirst : first ∈ aligner.matching response s := hmatching ▸ List.mem_cons_self
  exact ⟨first, (List.mem_filter.mp hfirst).1, rfl⟩

end DocumentAligner

/-- The outcome that a priority search over a cascade allows.  Nothing here walks: a match names
the least position whose check any mention passes and the first mention that passes it. -/
inductive PrioritySearch (strategies : List Strategy) (mentions : List GoldMention)
    (ctx : MatchContext) (response : Response) : Alignment → Prop
  | unmatched
      (noneHolds : ∀ s ∈ strategies, ∀ m ∈ mentions, ¬ s.predicate.holds response m ctx) :
      PrioritySearch strategies mentions ctx response .unmatched
  | matched {i : Nat} {s : Strategy} {before after : List GoldMention} {first : GoldMention}
      {ambiguity : Option Ambiguity}
      (atPosition : strategies[i]? = some s)
      (least : ∀ j < i, ∀ t, strategies[j]? = some t →
        ∀ m ∈ mentions, ¬ t.predicate.holds response m ctx)
      (split : mentions = before ++ first :: after)
      (earliest : ∀ m ∈ before, ¬ s.predicate.holds response m ctx)
      (firstHolds : s.predicate.holds response first ctx)
      (ambiguous : ambiguity.isSome ↔ ∃ m ∈ mentions, ∃ n ∈ mentions,
        s.predicate.holds response m ctx ∧ s.predicate.holds response n ctx ∧
          m.scoringId ≠ n.scoringId)
      (diagnosis : ∀ a ∈ ambiguity, a.responseId = response.uniqueId ∧
        a.candidates = (mentions.filter fun m => s.predicate.holds response m ctx).map
          fun m => { mention := m.id, scoringId := m.scoringId }) :
      PrioritySearch strategies mentions ctx response
        (.matched { mention := first.id, scoringId := first.scoringId, strategy := i, ambiguity })

/-- The ambiguity that a verdict reports is the one that the priority search asks for. -/
theorem among_filter_iff {id : String} {mentions : List GoldMention} {p : GoldMention → Bool}
    {ambiguity : Option Ambiguity} :
    ambiguity = Ambiguity.among id (mentions.filter p) ↔
      (ambiguity.isSome ↔ ∃ m ∈ mentions, ∃ n ∈ mentions,
        p m ∧ p n ∧ m.scoringId ≠ n.scoringId) ∧
      ∀ a ∈ ambiguity, a.responseId = id ∧
        a.candidates = (mentions.filter p).map Candidate.ofMention := by
  have hsome : (Ambiguity.among id (mentions.filter p)).isSome ↔
      ∃ m ∈ mentions, ∃ n ∈ mentions, p m ∧ p n ∧ m.scoringId ≠ n.scoringId := by
    rw [Ambiguity.among_isSome_iff]
    simp only [List.mem_filter]
    constructor
    · intro h
      obtain ⟨m, ⟨hm, hpm⟩, n, ⟨hn, hpn⟩, hne⟩ := h
      exact ⟨m, hm, n, hn, hpm, hpn, hne⟩
    · intro h
      obtain ⟨m, hm, n, hn, hpm, hpn, hne⟩ := h
      exact ⟨m, ⟨hm, hpm⟩, n, ⟨hn, hpn⟩, hne⟩
  rw [← hsome]
  constructor
  · intro heq
    subst heq
    refine ⟨Iff.rfl, fun a ha => ?_⟩
    rw [Ambiguity.eq_of_among_eq_some ha]
    exact ⟨rfl, rfl⟩
  · intro h
    obtain ⟨hiff, hdiag⟩ := h
    cases ambiguity with
    | none =>
        have hnone : ¬ (Ambiguity.among id (mentions.filter p)).isSome := by
          intro h
          exact absurd (hiff.mpr h) (by simp)
        exact (Option.not_isSome_iff_eq_none.mp hnone).symm
    | some a =>
        obtain ⟨b, hb⟩ := Option.isSome_iff_exists.mp (hiff.mp rfl)
        obtain ⟨hid, hcandidates⟩ := hdiag a rfl
        rw [hb, Ambiguity.eq_of_among_eq_some hb]
        cases a
        simp_all

/-- **An alignment is a priority search.**  For every set-up, inventory, oracle and role map, the
outcome of aligning a response is the one that the priority search allows, where the oracle is
there only with head relaxation; and the mentions that a strategy is said to match are those of the
inventory that satisfy it, in inventory order. -/
theorem align_eq_iff_prioritySearch (config : Config) (inventory : Inventory)
    (oracle : Option HeadOracle) (roles : RoleMap) (response : Response) :
    let aligner := DocumentAligner.ofConfig config inventory oracle roles
    let ctx : MatchContext := { oracle := if config.relaxWithHeads then oracle else none, roles }
    (∀ result, aligner.align response = result ↔
      PrioritySearch config.strategies inventory.mentions ctx response result) ∧
    ∀ s, aligner.matching response s =
      inventory.mentions.filter fun m => s.predicate.holds response m ctx := by
  intro aligner ctx
  have hmatching : ∀ s, aligner.matching response s =
      inventory.mentions.filter fun m => s.predicate.holds response m ctx := fun _ => rfl
  have hnil : ∀ s, aligner.matching response s = [] ↔
      ∀ m ∈ inventory.mentions, ¬ s.predicate.holds response m ctx := by
    intro s
    rw [hmatching, List.filter_eq_nil_iff]
  refine ⟨fun result => ?_, hmatching⟩
  cases result with
  | unmatched =>
      have hwalk : aligner.align response = .unmatched ↔
          ∀ s ∈ config.strategies, aligner.matching response s = [] :=
        DocumentAligner.search_eq_unmatched_iff
      rw [hwalk]
      constructor
      · intro h
        exact .unmatched fun s hs => (hnil s).mp (h s hs)
      · intro h s hs
        obtain ⟨hnone⟩ := h
        exact (hnil s).mpr (hnone s hs)
  | matched aligned =>
      have hwalk : aligner.align response = .matched aligned ↔ _ :=
        DocumentAligner.search_eq_matched_iff
      rw [hwalk]
      constructor
      · intro h
        obtain ⟨i, s, hs, hleast, hverdict⟩ := h
        obtain ⟨first, rest, hfirst, rfl⟩ := Strategy.verdict_eq_some_iff.mp hverdict
        rw [hmatching] at hfirst
        obtain ⟨before, after, hsplit, hbefore, hholds, _⟩ :=
          List.filter_eq_cons_iff.mp hfirst
        obtain ⟨hamb, hdiag⟩ := among_filter_iff.mp
          (congrArg (Ambiguity.among response.uniqueId) (hmatching s))
        rw [index_of_getElem?_strategies hs]
        exact .matched hs (fun j hj t ht => (hnil t).mp (hleast j hj t ht)) hsplit
          (fun m hm => by simpa using hbefore m hm) hholds hamb hdiag
      · intro h
        cases h with
        | @matched i s before after first ambiguity hs hleast hsplit hbefore hholds hamb hdiag =>
            refine ⟨i, s, hs, fun j hj t ht => (hnil t).mpr (hleast j hj t ht), ?_⟩
            refine Strategy.verdict_eq_some_iff.mpr
              ⟨first, after.filter fun m => s.predicate.holds response m ctx, ?_, ?_⟩
            · rw [hmatching, hsplit]
              exact List.filter_eq_cons_iff.mpr
                ⟨before, after, rfl, fun m hm => by simpa using hbefore m hm, hholds, rfl⟩
            · rw [hmatching, index_of_getElem?_strategies hs,
                ← among_filter_iff.mpr ⟨hamb, hdiag⟩]

end MentionAlign
