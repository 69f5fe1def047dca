import MentionAlign.Proofs.Cascade.PrioritySearch
import Mathlib.Data.ENat.Basic

/-!
# How far a walk goes

The rank of an alignment is the position of the winning strategy, and `⊤` when nothing wins.  A
walk reaches the positions up to its rank and looks at nothing behind it.  Comparisons of two runs
rest on these facts.

* `Indexed.matching_eq_nil_of_lt_rank`, `Indexed.le_rank_of_reached`: no strategy before the rank
  has a match, and a position before which nothing has a match is within the rank.
* `search_congr_of_reached`, `Indexed.align_eq_of_matching_eq`: a run that sees the same matches as
  another one at every strategy that the other one reaches ends as the other one does.
-/

namespace MentionAlign

/-- The position of the winning strategy, behind all positions when there is none. -/
def Alignment.rank : Alignment → ℕ∞
  | .matched aligned => aligned.strategy
  | .unmatched => ⊤

/-- A strategy that yields something has a match. -/
theorem Strategy.ne_nil_of_verdict {s : Strategy} {id : String} {mentions : List GoldMention}
    {aligned : AlignedMention} (h : s.verdict id mentions = some aligned) : mentions ≠ [] := by
  intro hnil
  rw [Strategy.verdict_eq_none_iff.mpr hnil] at h
  exact absurd h (by simp)

/-- What a strategy yields is ambiguous exactly when two of its mentions differ in their scoring
unit. -/
theorem Strategy.ambiguity_isSome_iff {s : Strategy} {id : String} {mentions : List GoldMention}
    {aligned : AlignedMention} (h : s.verdict id mentions = some aligned) :
    aligned.ambiguity.isSome ↔ ∃ m ∈ mentions, ∃ n ∈ mentions, m.scoringId ≠ n.scoringId := by
  obtain ⟨first, rest, _, rfl⟩ := Strategy.verdict_eq_some_iff.mp h
  exact Ambiguity.among_isSome_iff

namespace DocumentAligner

/-- **Nothing behind the winner counts.**  A run that agrees with another one on each strategy that
the other one reaches has the same outcome. -/
theorem search_congr_of_reached {a b : DocumentAligner} {response : Response}
    {strategies : List Strategy}
    (h : ∀ (i : Nat) (s : Strategy), strategies[i]? = some s →
      (∀ j < i, ∀ t, strategies[j]? = some t → a.matching response t = []) →
      b.matching response s = a.matching response s) :
    (b.search response strategies).1 = (a.search response strategies).1 := by
  cases hwalk : (a.search response strategies).1 with
  | unmatched =>
      have hnone := search_eq_unmatched_iff.mp hwalk
      apply search_eq_unmatched_iff.mpr
      intro s hs
      obtain ⟨i, hi⟩ := List.getElem?_of_mem hs
      rw [h i s hi fun j _ t ht => hnone t (List.mem_of_getElem? ht)]
      exact hnone s hs
  | matched aligned =>
      obtain ⟨i, s, hs, hleast, hverdict⟩ := search_eq_matched_iff.mp hwalk
      apply search_eq_matched_iff.mpr
      refine ⟨i, s, hs, ?_, ?_⟩
      -- a strategy before the winner is reached as well, so both runs agree on it
      · intro j hj t ht
        rw [h j t ht fun k hk u hu => hleast k (by omega) u hu]
        exact hleast j hj t ht
      · rwa [h i s hs hleast]

/-- The strategies of the aligner carry their own positions. -/
def Indexed (aligner : DocumentAligner) : Prop :=
  ∀ (i : Nat) (s : Strategy), aligner.strategies[i]? = some s → s.index = i

/-- The strategies of a set-up carry their own positions. -/
theorem indexed_ofConfig (config : Config) (inventory : Inventory) (oracle : Option HeadOracle)
    (roles : RoleMap) : (ofConfig config inventory oracle roles).Indexed := by
  intro i s hs
  have hplace : config.strategies[i]? = some s := hs
  exact index_of_getElem?_strategies hplace

variable {aligner : DocumentAligner} {response : Response}

/-- A match names the position of the strategy that won, the first one with a match. -/
theorem Indexed.align_eq_matched_iff (h : aligner.Indexed) {aligned : AlignedMention} :
    aligner.align response = .matched aligned ↔
      ∃ s, aligner.strategies[aligned.strategy]? = some s ∧
        (∀ j < aligned.strategy, ∀ t, aligner.strategies[j]? = some t →
          aligner.matching response t = []) ∧
        s.verdict response.uniqueId (aligner.matching response s) = some aligned := by
  have hwalk : aligner.align response = .matched aligned ↔ _ := search_eq_matched_iff
  rw [hwalk]
  constructor
  · intro hfound
    obtain ⟨i, s, hs, hleast, hverdict⟩ := hfound
    obtain ⟨first, rest, _, haligned⟩ := Strategy.verdict_eq_some_iff.mp hverdict
    have hi : aligned.strategy = i := by
      rw [haligned]
      exact h i s hs
    rw [hi]
    exact ⟨s, hs, hleast, hverdict⟩
  · intro hfound
    obtain ⟨s, hs, hleast, hverdict⟩ := hfound
    exact ⟨aligned.strategy, s, hs, hleast, hverdict⟩

/-- No strategy before the rank has a match. -/
theorem Indexed.matching_eq_nil_of_lt_rank (h : aligner.Indexed) {i : Nat} {s : Strategy}
    (hs : aligner.strategies[i]? = some s)
    (hi : (i : ℕ∞) < (aligner.align response).rank) :
    aligner.matching response s = [] := by
  cases halign : aligner.align response with
  | unmatched =>
      have hnone : ∀ t ∈ aligner.strategies, aligner.matching response t = [] :=
        search_eq_unmatched_iff.mp halign
      exact hnone s (List.mem_of_getElem? hs)
  | matched aligned =>
      obtain ⟨_, _, hleast, _⟩ := h.align_eq_matched_iff.mp halign
      rw [halign] at hi
      exact hleast i (Nat.cast_lt.mp hi) s hs

/-- A position that the walk reaches is within the rank. -/
theorem Indexed.le_rank_of_reached (h : aligner.Indexed) {i : Nat}
    (hreached : ∀ j < i, ∀ t, aligner.strategies[j]? = some t → aligner.matching response t = []) :
    (i : ℕ∞) ≤ (aligner.align response).rank := by
  cases halign : aligner.align response with
  | unmatched => exact le_top
  | matched aligned =>
      obtain ⟨s, hs, _, hverdict⟩ := h.align_eq_matched_iff.mp halign
      apply Nat.cast_le.mpr
      by_contra hlt
      exact Strategy.ne_nil_of_verdict hverdict (hreached _ (by omega) s hs)

/-- A run over the same strategies that sees the same matches up to the rank has the same
outcome. -/
theorem Indexed.align_eq_of_matching_eq {other : DocumentAligner} (h : aligner.Indexed)
    (hrow : other.strategies = aligner.strategies)
    (hsame : ∀ (i : Nat) (s : Strategy), aligner.strategies[i]? = some s →
      (i : ℕ∞) ≤ (aligner.align response).rank →
      other.matching response s = aligner.matching response s) :
    other.align response = aligner.align response := by
  have hother : other.align response = (other.search response aligner.strategies).1 := by
    rw [← hrow]
    rfl
  rw [hother]
  apply search_congr_of_reached
  intro i s hs hreached
  exact hsame i s hs (h.le_rank_of_reached hreached)

/-- A strategy with a match makes the run match, by that strategy at the latest. -/
theorem Indexed.exists_matched_of_matching_ne_nil (h : aligner.Indexed) {i : Nat} {s : Strategy}
    (hs : aligner.strategies[i]? = some s) (hmatch : aligner.matching response s ≠ []) :
    ∃ aligned, aligner.align response = .matched aligned ∧ aligned.strategy ≤ i := by
  have hrank : ¬ (i : ℕ∞) < (aligner.align response).rank :=
    fun hlt => hmatch (h.matching_eq_nil_of_lt_rank hs hlt)
  cases halign : aligner.align response with
  | unmatched =>
      rw [halign] at hrank
      exact absurd (ENat.natCast_lt_top i) hrank
  | matched aligned =>
      rw [halign] at hrank
      exact ⟨aligned, rfl, Nat.cast_le.mp (not_lt.mp hrank)⟩

end DocumentAligner

end MentionAlign
