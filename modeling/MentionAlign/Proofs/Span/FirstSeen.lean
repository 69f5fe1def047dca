import Mathlib.Data.List.Induction
import MentionAlign.Span.Basic

/-!
# Spans first seen

A set of spans is read from a row in which spans may be repeated: a span is passed over when one
before it has its offsets, whatever text either carries.  `FirstSeen` tells this span by span from
the end of the row, and `List.eraseDups` computes it.  What is left has no offsets twice, and such a
row is left as it is.
-/

namespace MentionAlign

namespace SpanSet

/-- The second row holds the spans of the first one whose offsets none before them has, in order.
One more span at the end is taken over or passed over. -/
inductive FirstSeen : List Span → List Span → Prop
  | nil : FirstSeen [] []
  | fresh {spans kept : List Span} {s : Span} (front : FirstSeen spans kept)
      (hnew : ∀ t ∈ spans, ¬ t == s) : FirstSeen (spans ++ [s]) (kept ++ [s])
  | again {spans kept : List Span} {s : Span} (front : FirstSeen spans kept)
      (hseen : ∃ t ∈ spans, t == s) : FirstSeen (spans ++ [s]) kept

variable {spans kept : List Span}

/-- A span at the end of a row adds to the row without repetitions when its offsets are new. -/
theorem eraseDups_concat (spans : List Span) (s : Span) :
    (spans ++ [s]).eraseDups =
      if spans.any (· == s) then spans.eraseDups else spans.eraseDups ++ [s] := by
  match spans with
  | [] => rfl
  | t :: rest =>
      have ih := eraseDups_concat (rest.filter fun u => !u == t) s
      have hsymm : (t == s) = (s == t) := by
        simp only [BEq.beq, eq_comm]
      rw [List.cons_append, List.eraseDups_cons, List.eraseDups_cons, List.filter_append,
        List.any_cons, hsymm]
      by_cases hs : s == t
      · simp [hs]
      -- what the first span passes over does not have the offsets of the last one either
      · have hany : (rest.filter fun u => !u == t).any (· == s) = rest.any (· == s) := by
          rw [List.any_filter]
          refine List.any_congr rfl fun u => ?_
          by_cases hu : u == s
          · have hut : ¬ u == t := by
              simp only [Span.beq_iff] at hs hu ⊢
              omega
            simp [hu, hut]
          · simp [hu]
        rw [hany] at ih
        simp only [hs, List.filter_cons, List.filter_nil, Bool.not_false, if_true, Bool.false_or,
          ih]
        split <;> rfl
termination_by spans.length
decreasing_by exact Nat.lt_succ_of_le (List.length_filter_le _ _)

/-- The spans of a row that are first seen are those of the row without repetitions. -/
theorem firstSeen_iff : FirstSeen spans kept ↔ spans.eraseDups = kept := by
  constructor
  · intro h
    induction h with
    | nil => rfl
    | @fresh spans kept s front hnew ih =>
        rw [eraseDups_concat, ih, if_neg]
        simpa using hnew
    | @again spans kept s front hseen ih =>
        rw [eraseDups_concat, ih, if_pos]
        simpa using hseen
  · rintro rfl
    induction spans using List.reverseRecOn with
    | nil => exact .nil
    | append_singleton spans s ih =>
        rw [eraseDups_concat]
        split
        · next hseen => exact .again ih (by simpa using hseen)
        · next hnew => exact .fresh ih (by simpa using hnew)

/-- Nothing is added to a row. -/
theorem FirstSeen.subset (h : FirstSeen spans kept) : ∀ s ∈ kept, s ∈ spans := by
  induction h with
  | nil => exact fun _ hs => hs
  | fresh front hnew ih =>
      intro t ht
      rcases List.mem_append.mp ht with ht | ht
      · exact List.mem_append_left _ (ih t ht)
      · exact List.mem_append_right _ ht
  | again front hseen ih => exact fun t ht => List.mem_append_left _ (ih t ht)

/-- No two spans first seen have equal offsets. -/
theorem FirstSeen.pairwise (h : FirstSeen spans kept) : kept.Pairwise fun s t => ¬ s == t := by
  induction h with
  | nil => exact .nil
  | fresh front hnew ih =>
      refine List.pairwise_append.mpr ⟨ih, List.pairwise_singleton _ _, ?_⟩
      intro t ht s hs
      obtain rfl := List.mem_singleton.mp hs
      exact hnew t (front.subset t ht)
  | again front hseen ih => exact ih

/-- A row of spans with different offsets is its own row of spans first seen. -/
theorem firstSeen_self (h : spans.Pairwise fun s t => ¬ s == t) : FirstSeen spans spans := by
  induction spans using List.reverseRecOn with
  | nil => exact .nil
  | append_singleton spans s ih =>
      obtain ⟨hfront, -, hlast⟩ := List.pairwise_append.mp h
      exact .fresh (ih hfront) fun t ht => hlast t ht s List.mem_cons_self

/-- Texts have no say in which spans are first seen. -/
theorem FirstSeen.offsetsOnly (h : FirstSeen spans kept) :
    FirstSeen (spans.map Span.offsetsOnly) (kept.map Span.offsetsOnly) := by
  induction h with
  | nil => exact .nil
  | fresh front hnew ih =>
      rw [List.map_append, List.map_append]
      exact .fresh ih (List.forall_mem_map.mpr hnew)
  | again front hseen ih =>
      obtain ⟨t, ht, hsame⟩ := hseen
      rw [List.map_append]
      exact .again ih ⟨_, List.mem_map_of_mem ht, hsame⟩

end SpanSet

end MentionAlign
