import MentionAlign.Span.Basic

/-!
# Rows of spans

Words, the children of a phrase and the sentences of a document all follow one another through the
text without overlap.  `InRow lo spans hi` says so for a row that begins at or behind `lo` and
whose last span ends just before `hi`.  Rows compose at the offset where one ends, and inside a row
two spans are disjoint unless they stand at the same place.
-/

namespace MentionAlign

namespace Span

/-- The spans follow one another from `lo` on, and the last one ends just before `hi`. -/
def InRow : Nat → List Span → Nat → Prop
  | lo, [], hi => lo = hi
  | lo, s :: ss, hi => lo ≤ s.start ∧ InRow (s.stop + 1) ss hi

/-- Rows compose. -/
theorem InRow.append {lo mid hi : Nat} {ss ts : List Span}
    (hss : InRow lo ss mid) (hts : InRow mid ts hi) : InRow lo (ss ++ ts) hi := by
  induction ss generalizing lo with
  | nil =>
      have heq : lo = mid := hss
      exact heq ▸ hts
  | cons s ss ih => exact ⟨hss.1, ih hss.2⟩

/-- A row does not end before it begins. -/
theorem InRow.le {lo hi : Nat} {ss : List Span} (h : InRow lo ss hi) : lo ≤ hi := by
  induction ss generalizing lo with
  | nil => exact Nat.le_of_eq h
  | cons s ss ih =>
      have := ih h.2
      have := h.1
      have := s.start_le_stop
      omega

/-- Every span of a row lies between its ends. -/
theorem InRow.bounds {lo hi : Nat} {ss : List Span} (h : InRow lo ss hi) :
    ∀ s ∈ ss, lo ≤ s.start ∧ s.stop < hi := by
  induction ss generalizing lo with
  | nil => simp
  | cons t ss ih =>
      intro s hs
      have hrest := h.2.le
      have hfirst := h.1
      have hspan := t.start_le_stop
      rcases List.mem_cons.mp hs with rfl | hs
      · exact ⟨hfirst, by omega⟩
      · have := ih h.2 s hs
        omega

/-- Of two spans of a row the earlier one ends before the later one starts. -/
theorem InRow.pairwise {lo hi : Nat} {ss : List Span} (h : InRow lo ss hi) :
    ss.Pairwise fun s t => s.stop < t.start := by
  induction ss generalizing lo with
  | nil => exact .nil
  | cons s ss ih =>
      refine List.pairwise_cons.mpr ⟨fun t ht => ?_, ih h.2⟩
      have := h.2.bounds t ht
      omega

/-- The end of a row is the offset behind its last span. -/
theorem InRow.getLast {lo hi : Nat} {ss : List Span} {s : Span} (h : InRow lo ss hi)
    (hlast : ss.getLast? = some s) : s.stop + 1 = hi := by
  induction ss generalizing lo with
  | nil => exact absurd hlast (by simp)
  | cons t ss ih =>
      cases ss with
      | nil =>
          have heq : t = s := by simpa using hlast
          exact heq ▸ h.2
      | cons u us => exact ih h.2 (by simpa using hlast)

end Span

end MentionAlign
