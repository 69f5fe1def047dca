import MentionAlign.Tree.Lexeme
import Mathlib.Data.List.TakeWhile

/-!
# What a text spells

`Spells` relates a text to the row of lexeme kinds that it writes, with blanks anywhere between the
lexemes and with words that cannot be read on.  Many texts write the same row, but each text writes
exactly one, and it is the row that the lexer reads: `spells_iff_scan`.  What only depends on the
row therefore does not depend on the blanks.
-/

namespace MentionAlign

/-- A word is read as far as it goes. -/
theorem Lexeme.scanFrom_word {position : Nat} {word cs : List Char} (nonempty : word ≠ [])
    (wordChars : ∀ c ∈ word, isWordChar c) (maximal : ∀ c ∈ cs.head?, ¬ isWordChar c) :
    scanFrom position (word ++ cs) =
      ⟨.word word, position⟩ :: scanFrom (position + Text.byteLength word) cs := by
  cases word with
  | nil => exact absurd rfl nonempty
  | cons c tail =>
      have hc := wordChars c List.mem_cons_self
      simp only [isWordChar, ne_eq, decide_not, Bool.and_eq_true, Bool.not_eq_true',
        decide_eq_false_iff_not] at hc
      have htail : ∀ x ∈ tail, isWordChar x :=
        fun x hx => wordChars x (List.mem_cons_of_mem _ hx)
      have hstop : cs.takeWhile isWordChar = [] ∧ cs.dropWhile isWordChar = cs := by
        cases cs with
        | nil => exact ⟨rfl, rfl⟩
        | cons x xs => simp [maximal x (by simp)]
      have htake : (tail ++ cs).takeWhile isWordChar = tail := by
        rw [List.takeWhile_append_of_pos htail, hstop.1, List.append_nil]
      have hdrop : (tail ++ cs).dropWhile isWordChar = cs := by
        rw [List.dropWhile_append_of_pos htail, hstop.2]
      rw [List.cons_append, scanFrom, if_neg hc.1.1, if_neg hc.1.2, if_neg (by simp [hc.2])]
      simp only [htake, hdrop]

namespace Bracketed

/-- A text writes a row of lexeme kinds: the lexemes stand in order, blanks stand anywhere between
them, and no word could be read further. -/
inductive Spells : List Char → List LexemeKind → Prop
  | nil : Spells [] []
  | blank {c : Char} {cs : List Char} {ks : List LexemeKind}
      (isBlank : Text.isBlank c) (rest : Spells cs ks) : Spells (c :: cs) ks
  | opening {cs : List Char} {ks : List LexemeKind} (rest : Spells cs ks) :
      Spells ('(' :: cs) (.opening :: ks)
  | closing {cs : List Char} {ks : List LexemeKind} (rest : Spells cs ks) :
      Spells (')' :: cs) (.closing :: ks)
  | word {word cs : List Char} {ks : List LexemeKind} (nonempty : word ≠ [])
      (wordChars : ∀ c ∈ word, Lexeme.isWordChar c)
      (maximal : ∀ c ∈ cs.head?, ¬ Lexeme.isWordChar c) (rest : Spells cs ks) :
      Spells (word ++ cs) (.word word :: ks)

/-- The words of a written row are not empty. -/
theorem Spells.word_ne_nil {cs : List Char} {ks : List LexemeKind} (h : Spells cs ks) :
    ∀ word, LexemeKind.word word ∈ ks → word ≠ [] := by
  induction h with
  | nil => simp
  | blank _ _ ih => exact ih
  | opening _ ih | closing _ ih =>
      intro word hword
      exact ih word (by simpa using hword)
  | word nonempty _ _ _ ih =>
      intro word hword
      rcases List.mem_cons.mp hword with heq | hword
      · exact LexemeKind.word.inj heq ▸ nonempty
      · exact ih word hword

/-- The lexer reads a row that the text writes. -/
theorem spells_scanFrom (position : Nat) (cs : List Char) :
    Spells cs ((Lexeme.scanFrom position cs).map Lexeme.kind) := by
  fun_induction Lexeme.scanFrom position cs with
  | case1 => exact .nil
  | case2 position cs ih => exact .opening ih
  | case3 position cs _ ih => exact .closing ih
  | case4 position c cs _ _ hc ih => exact .blank hc ih
  | case5 position c cs hopen hclose hblank word ih =>
      have hsplit : c :: cs = word ++ cs.dropWhile Lexeme.isWordChar := by
        simp only [word, List.cons_append, List.takeWhile_append_dropWhile]
      have hc : Lexeme.isWordChar c := by
        simp [Lexeme.isWordChar, hopen, hclose, hblank]
      rw [hsplit]
      refine .word (List.cons_ne_nil _ _) ?_ ?_ ih
      · intro x hx
        rcases List.mem_cons.mp hx with rfl | hx
        · exact hc
        · exact List.mem_takeWhile_imp hx
      · intro x hx
        have := List.head?_dropWhile_not Lexeme.isWordChar cs
        simp_all

/-- A row that a text writes is the one that the lexer reads. -/
theorem Spells.scanFrom_eq {cs : List Char} {ks : List LexemeKind} (h : Spells cs ks) :
    ∀ position, (Lexeme.scanFrom position cs).map Lexeme.kind = ks := by
  induction h with
  | nil => intro position; rw [Lexeme.scanFrom]; rfl
  | @blank c cs ks hblank _ ih =>
      intro position
      have hopen : c ≠ '(' := by
        intro heq
        exact absurd (heq ▸ hblank) (by decide)
      have hclose : c ≠ ')' := by
        intro heq
        exact absurd (heq ▸ hblank) (by decide)
      rw [Lexeme.scanFrom, if_neg hopen, if_neg hclose, if_pos hblank]
      exact ih _
  | opening _ ih =>
      intro position
      rw [Lexeme.scanFrom, if_pos rfl, List.map_cons, ih]
  | closing _ ih =>
      intro position
      rw [Lexeme.scanFrom, if_neg (by decide), if_pos rfl, List.map_cons, ih]
  | word nonempty wordChars maximal _ ih =>
      intro position
      rw [Lexeme.scanFrom_word nonempty wordChars maximal, List.map_cons, ih]

/-- **The lexer reads exactly what a text writes.** -/
theorem spells_iff_scan {cs : List Char} {ks : List LexemeKind} :
    Spells cs ks ↔ (Lexeme.scan cs).map Lexeme.kind = ks := by
  constructor
  · intro h
    exact h.scanFrom_eq 0
  · intro h
    exact h ▸ spells_scanFrom 0 cs

/-- A text writes one row only. -/
theorem Spells.kinds_eq {cs : List Char} {ks ks' : List LexemeKind} (h : Spells cs ks)
    (h' : Spells cs ks') : ks = ks' :=
  (spells_iff_scan.mp h).symm.trans (spells_iff_scan.mp h')

end Bracketed

end MentionAlign
