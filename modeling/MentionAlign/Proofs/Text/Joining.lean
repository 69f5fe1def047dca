import MentionAlign.Text.Split

/-!
# Texts made up of parts

A row of parts makes up a text when it is the parts with a separator between each one and the next,
and no part holds a separator.  Every text is made up of one row of parts and of no other, and
`Text.splitAt` returns that row.
-/

namespace MentionAlign.Text

variable {separator : Char} {cs : List Char} {parts : List (List Char)}

/-- `cs` is the parts with separators between them, and nowhere else is a separator. -/
structure Joins (separator : Char) (cs : List Char) (parts : List (List Char)) : Prop where
  nonempty : parts ≠ []
  apart : ∀ part ∈ parts, separator ∉ part
  joined : cs = [separator].intercalate parts

/-- Parts without the separator are found again in the text that they make up. -/
theorem splitAt_intercalate (hne : parts ≠ []) (hapart : ∀ part ∈ parts, separator ∉ part) :
    splitAt separator ([separator].intercalate parts) = parts := by
  induction parts with
  | nil => exact absurd rfl hne
  | cons part rest ih =>
      obtain ⟨hpart, hrest⟩ := List.forall_mem_cons.mp hapart
      by_cases hlast : rest = []
      · subst hlast
        rw [List.intercalate_singleton, splitAt_of_notMem hpart]
      · rw [List.intercalate_cons_of_ne_nil hlast, List.append_assoc, List.singleton_append,
          splitAt_append_cons hpart, ih hlast hrest]

/-- **The parts of a text are what splitting returns.** -/
theorem joins_iff : Joins separator cs parts ↔ splitAt separator cs = parts := by
  constructor
  · rintro ⟨hne, hapart, rfl⟩
    exact splitAt_intercalate hne hapart
  · rintro rfl
    exact {
      nonempty := splitAt_ne_nil separator cs
      apart := fun _ => notMem_of_mem_splitAt
      joined := (intercalate_splitAt separator cs).symm }

/-- Rows of parts without the separator make up the same text only if they are the same row. -/
theorem intercalate_inj {others : List (List Char)} (hparts : parts ≠ [])
    (hothers : others ≠ []) (hapart : ∀ part ∈ parts, separator ∉ part)
    (hothersApart : ∀ part ∈ others, separator ∉ part) :
    [separator].intercalate parts = [separator].intercalate others ↔ parts = others := by
  refine ⟨fun h => ?_, congrArg _⟩
  rw [← splitAt_intercalate hparts hapart, h, splitAt_intercalate hothers hothersApart]

/-- What stands behind the last separator of a text is found again, whatever stands before it. -/
theorem append_separator_inj {front front' part part' : List Char} (h : separator ∉ part)
    (h' : separator ∉ part') :
    front ++ separator :: part = front' ++ separator :: part' ↔ front = front' ∧ part = part' := by
  constructor
  · intro heq
    -- a longer front would put its last separator behind that of the shorter one
    rcases List.append_eq_append_iff.mp heq with ⟨more, rfl, hmore⟩ | ⟨more, rfl, hmore⟩
    · cases more with
      | nil => exact ⟨(List.append_nil _).symm, (List.cons.inj hmore).2⟩
      | cons c more =>
          have hpart : part = more ++ separator :: part' := (List.cons.inj hmore).2
          exact absurd (by simp [hpart]) h
    · cases more with
      | nil => exact ⟨List.append_nil _, ((List.cons.inj hmore).2).symm⟩
      | cons c more =>
          have hpart : part' = more ++ separator :: part := (List.cons.inj hmore).2
          exact absurd (by simp [hpart]) h'
  · rintro ⟨rfl, rfl⟩
    rfl

/-- What holds of the characters of the parts and of the separator holds of the text that they make
up. -/
theorem forall_mem_intercalate {P : Char → Prop} {separator : List Char}
    {parts : List (List Char)} (hseparator : ∀ c ∈ separator, P c)
    (hparts : ∀ part ∈ parts, ∀ c ∈ part, P c) : ∀ c ∈ separator.intercalate parts, P c := by
  induction parts with
  | nil => simp
  | cons part rest ih =>
      obtain ⟨hpart, hrest⟩ := List.forall_mem_cons.mp hparts
      by_cases hlast : rest = []
      · subst hlast
        rwa [List.intercalate_singleton]
      · rw [List.intercalate_cons_of_ne_nil hlast]
        exact List.forall_mem_append.mpr
          ⟨List.forall_mem_append.mpr ⟨hpart, hseparator⟩, ih hrest⟩

end MentionAlign.Text
