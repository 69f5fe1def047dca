/-!
# Splitting a text at a separator

A text with `n` separators has `n + 1` parts, empty ones included; joining the parts with the
separator gives the text back.
-/

namespace MentionAlign.Text

/-- The parts of a text between the occurrences of `separator`. -/
def splitAt (separator : Char) : List Char → List (List Char)
  | [] => [[]]
  | c :: cs =>
    if c = separator then [] :: splitAt separator cs
    else match splitAt separator cs with
      | [] => [[c]]
      | part :: parts => (c :: part) :: parts

/-- A split text has at least one part. -/
theorem splitAt_ne_nil (separator : Char) (cs : List Char) : splitAt separator cs ≠ [] := by
  cases cs with
  | nil => simp [splitAt]
  | cons c cs => rw [splitAt]; split; · simp
                 · split <;> simp

/-- Joining the parts with the separator gives the text back. -/
theorem intercalate_splitAt (separator : Char) (cs : List Char) :
    [separator].intercalate (splitAt separator cs) = cs := by
  induction cs with
  | nil => rfl
  | cons c cs ih =>
    rw [splitAt]
    split
    · next h =>
      cases hs : splitAt separator cs with
      | nil => exact absurd hs (splitAt_ne_nil separator cs)
      | cons part parts => rw [hs] at ih; simp [List.intercalate, ← ih, h]
    · cases hs : splitAt separator cs with
      | nil => exact absurd hs (splitAt_ne_nil separator cs)
      | cons part parts => rw [hs] at ih; cases parts <;> simp_all [List.intercalate]

/-- A text without the separator is its only part. -/
theorem splitAt_of_notMem {separator : Char} {cs : List Char} (h : separator ∉ cs) :
    splitAt separator cs = [cs] := by
  induction cs with
  | nil => rfl
  | cons c cs ih =>
    rw [splitAt, if_neg (List.ne_of_not_mem_cons h).symm, ih (List.not_mem_of_not_mem_cons h)]

/-- The first part ends where the separator first occurs. -/
theorem splitAt_append_cons {separator : Char} {first : List Char} (h : separator ∉ first)
    (rest : List Char) :
    splitAt separator (first ++ separator :: rest) = first :: splitAt separator rest := by
  induction first with
  | nil => rw [List.nil_append, splitAt, if_pos rfl]
  | cons c cs ih =>
    rw [List.cons_append, splitAt, if_neg (List.ne_of_not_mem_cons h).symm,
      ih (List.not_mem_of_not_mem_cons h)]

/-- The separator occurs in no part. -/
theorem notMem_of_mem_splitAt {separator : Char} {cs part : List Char}
    (h : part ∈ splitAt separator cs) : separator ∉ part := by
  induction cs generalizing part with
  | nil => simp_all [splitAt]
  | cons c cs ih =>
    rw [splitAt] at h
    split at h
    · rcases List.mem_cons.mp h with rfl | h
      · exact List.not_mem_nil
      · exact ih h
    · next hc =>
      cases hs : splitAt separator cs with
      | nil => exact absurd hs (splitAt_ne_nil separator cs)
      | cons head parts =>
        rw [hs] at h ih
        rcases List.mem_cons.mp h with rfl | h
        · exact List.not_mem_cons_of_ne_of_not_mem (Ne.symm hc) (ih List.mem_cons_self)
        · exact ih (List.mem_cons_of_mem _ h)

/-- A text has two parts exactly when the separator occurs once. -/
theorem splitAt_eq_pair_iff {separator : Char} {cs first last : List Char} :
    splitAt separator cs = [first, last] ↔
      cs.count separator = 1 ∧ cs = first ++ separator :: last := by
  constructor
  · intro h
    have hjoined : cs = first ++ separator :: last := by
      rw [← intercalate_splitAt separator cs, h]
      simp [List.intercalate]
    have hparts : ∀ part ∈ splitAt separator cs, separator ∉ part := fun _ =>
      notMem_of_mem_splitAt
    rw [h] at hparts
    have hfirst : separator ∉ first := hparts first (by simp)
    have hlast : separator ∉ last := hparts last (by simp)
    refine ⟨?_, hjoined⟩
    rw [hjoined, List.count_append, List.count_cons_self, List.count_eq_zero.mpr hfirst,
      List.count_eq_zero.mpr hlast]
  · rintro ⟨hcount, rfl⟩
    rw [List.count_append, List.count_cons_self] at hcount
    have hfirst : separator ∉ first := List.count_eq_zero.mp (by omega)
    have hlast : separator ∉ last := List.count_eq_zero.mp (by omega)
    rw [splitAt_append_cons hfirst, splitAt_of_notMem hlast]

end MentionAlign.Text
