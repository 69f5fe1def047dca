import Mathlib.Data.List.DropRight
import MentionAlign.Text.Blank

/-!
# Trimming

A text trimmed to a core is that core between two runs of blanks, where the core neither begins nor
ends with a blank.  Every text has one core and no other, and `Text.trim` returns it.
-/

namespace MentionAlign.Text

variable {before after core cs : List Char}

/-- `core` is `cs` without the blanks at its ends. -/
structure Trims (cs core : List Char) : Prop where
  around : ∃ before after, cs = before ++ core ++ after ∧
    (∀ c ∈ before, isBlank c) ∧ ∀ c ∈ after, isBlank c
  starts : ∀ c ∈ core.head?, ¬ isBlank c
  ends : ∀ c ∈ core.getLast?, ¬ isBlank c

/-- A text without blanks is its own core. -/
theorem trims_self (h : ∀ c ∈ cs, ¬ isBlank c) : Trims cs cs where
  around := ⟨[], [], by simp⟩
  starts c hc := h c (List.mem_of_head? hc)
  ends c hc := h c (List.mem_of_getLast? hc)

/-- Blanks around a text leave its core as it is. -/
theorem Trims.between (h : Trims cs core) (hbefore : ∀ c ∈ before, isBlank c)
    (hafter : ∀ c ∈ after, isBlank c) : Trims (before ++ cs ++ after) core where
  around := by
    obtain ⟨front, back, rfl, hfront, hback⟩ := h.around
    exact ⟨before ++ front, back ++ after, by simp only [List.append_assoc],
      List.forall_mem_append.mpr ⟨hbefore, hfront⟩, List.forall_mem_append.mpr ⟨hback, hafter⟩⟩
  starts := h.starts
  ends := h.ends

/-- Blanks in front of a text are trimmed with those at its start. -/
theorem trimStart_append (h : ∀ c ∈ before, isBlank c) (cs : List Char) :
    trimStart (before ++ cs) = trimStart cs :=
  List.dropWhile_append_of_pos h

/-- Blanks behind a text are trimmed with those at its end. -/
theorem trimEnd_append (h : ∀ c ∈ after, isBlank c) (cs : List Char) :
    trimEnd (cs ++ after) = trimEnd cs := by
  rw [trimEnd, List.reverse_append,
    List.dropWhile_append_of_pos fun c hc => h c (List.mem_reverse.mp hc), ← trimEnd]

/-- Nothing is trimmed in front of a character that is not blank. -/
theorem trimStart_eq_self (h : ∀ c ∈ cs.head?, ¬ isBlank c) : trimStart cs = cs := by
  cases cs with
  | nil => rfl
  | cons c cs => exact List.dropWhile_cons_of_neg (h c rfl)

/-- Nothing is trimmed behind a character that is not blank. -/
theorem trimEnd_eq_self (h : ∀ c ∈ cs.getLast?, ¬ isBlank c) : trimEnd cs = cs :=
  List.rdropWhile_eq_self_iff.mpr fun hne => h _ (List.getLast?_eq_some_getLast hne)

/-- What is trimmed of a text are blanks, and what remains neither begins nor ends with one. -/
theorem trims_trim (cs : List Char) : Trims cs (trim cs) := by
  have hstart : cs = cs.takeWhile isBlank ++ trimStart cs := List.takeWhile_append_dropWhile.symm
  have hend : trimStart cs = trim cs ++ (trimStart cs).rtakeWhile isBlank :=
    List.rdropWhile_append_rtakeWhile.symm
  refine ⟨⟨cs.takeWhile isBlank, (trimStart cs).rtakeWhile isBlank, ?_,
    fun c => List.mem_takeWhile_imp, fun c => List.mem_rtakeWhile_imp⟩, ?_, ?_⟩
  · rw [List.append_assoc, ← hend, ← hstart]
  · intro c hc
    -- what the second trimming leaves begins where its argument begins
    have hfirst : (trimStart cs).head? = some c := by rw [hend, List.head?_append, hc]; rfl
    have hnot := List.head?_dropWhile_not isBlank cs
    rw [← trimStart, hfirst] at hnot
    exact Bool.eq_false_iff.mp hnot
  · intro c hc
    obtain ⟨hne, rfl⟩ := List.mem_getLast?_eq_getLast hc
    exact List.rdropWhile_last_not _ _ hne

/-- **The core of a text is what trimming returns.** -/
theorem trims_iff : Trims cs core ↔ trim cs = core := by
  constructor
  · rintro ⟨⟨before, after, rfl, hbefore, hafter⟩, hstarts, hends⟩
    rw [trim, List.append_assoc, trimStart_append hbefore]
    cases core with
    | nil =>
        have hnone : trimStart after = [] := List.dropWhile_eq_nil_iff.mpr hafter
        rw [List.nil_append, hnone]
        rfl
    | cons c core =>
        have hall : trimStart (c :: core ++ after) = c :: core ++ after :=
          trimStart_eq_self hstarts
        rw [hall, trimEnd_append hafter, trimEnd_eq_self hends]
  · rintro rfl
    exact trims_trim cs

end MentionAlign.Text
