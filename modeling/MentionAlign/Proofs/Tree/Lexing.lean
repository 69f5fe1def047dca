import MentionAlign.Proofs.Tree.Spelling

/-!
# Lexing loses nothing

The lexemes of a text and the blanks between them are the text: `Lexeme.Covers` says so of a text
and a row of lexemes, with the byte at which each of them begins and with words that go on neither
to the left nor to the right.  What the lexer returns covers its text (`Lexeme.covers_scan`), and
all that is known of positions follows from that.

A lexer need not look for the end of a word.  `Lexeme.Loop` takes one character at a time, holds the
word that it is in and where the word began, and lets go of it at the next parenthesis or blank and
at the end of the text.  What it has done, and what is still to be read from the beginning of the
word on, stay the same at every step (`Lexeme.Loop.outlook_take`), so it returns the same lexemes.
-/

namespace MentionAlign

namespace Text

theorem foldl_byteLength (n : Nat) (cs : List Char) :
    cs.foldl (fun n c => n + c.utf8Size) n = n + byteLength cs := by
  induction cs generalizing n with
  | nil => rfl
  | cons c cs ih =>
      rw [byteLength, List.foldl_cons, List.foldl_cons, ih, ih]
      omega

theorem byteLength_append (cs ds : List Char) :
    byteLength (cs ++ ds) = byteLength cs + byteLength ds := by
  rw [byteLength, List.foldl_append, foldl_byteLength]
  rfl

theorem byteLength_singleton (c : Char) : byteLength [c] = c.utf8Size := Nat.zero_add _

theorem byteLength_cons (c : Char) (cs : List Char) :
    byteLength (c :: cs) = c.utf8Size + byteLength cs := by
  rw [← List.singleton_append, byteLength_append, byteLength_singleton]

/-- A character of two texts behind each other stands in the first or in the second. -/
theorem eq_or_eq_of_append_eq {cs ds before after : List Char} {c : Char}
    (h : cs ++ ds = before ++ c :: after) :
    (∃ rest, cs = before ++ c :: rest) ∨
      ∃ front, before = cs ++ front ∧ ds = front ++ c :: after := by
  rcases List.append_eq_append_iff.mp h with ⟨front, hbefore, hds⟩ | ⟨rest, hcs, hrest⟩
  · exact .inr ⟨front, hbefore, hds⟩
  · cases rest with
    | nil => exact .inr ⟨[], by simpa using hcs.symm, hrest.symm⟩
    | cons d rest =>
        obtain ⟨rfl, _⟩ := List.cons.inj hrest
        exact .inl ⟨rest, hcs⟩

/-- Only the empty text takes no bytes. -/
theorem byteLength_pos {cs : List Char} (h : cs ≠ []) : 0 < byteLength cs := by
  obtain ⟨c, cs, rfl⟩ := List.exists_cons_of_ne_nil h
  rw [byteLength_cons]
  exact Nat.add_pos_left c.utf8Size_pos _

/-- A string takes the bytes of its characters. -/
theorem utf8ByteSize_ofList (cs : List Char) :
    (String.ofList cs).utf8ByteSize = byteLength cs := by
  induction cs with
  | nil => rfl
  | cons c cs ih =>
      rw [String.ofList_cons, String.utf8ByteSize_append, String.utf8ByteSize_singleton, ih,
        byteLength_cons]

end Text

namespace Lexeme

open Text (byteLength)

/-! ### Covering -/

/-- A lexeme between what stands before and behind it is whole: a word is not empty, has nothing but
word characters, and goes on to neither side. -/
def Whole (before after : List Char) (l : Lexeme) : Prop :=
  ∀ word, l.kind = .word word → word ≠ [] ∧ (∀ c ∈ word, isWordChar c) ∧
    (∀ c ∈ before.getLast?, ¬ isWordChar c) ∧ ∀ c ∈ after.head?, ¬ isWordChar c

/-- Behind what has been read, the rest of a text is a row of whole lexemes, each at its byte, with
nothing but blanks before, between and behind them. -/
inductive Covers : List Char → List Char → List Lexeme → Prop
  | blanks {read cs : List Char} (blank : ∀ c ∈ cs, Text.isBlank c) : Covers read cs []
  | lexeme {read gap cs : List Char} {l : Lexeme} {ls : List Lexeme}
      (blank : ∀ c ∈ gap, Text.isBlank c) (position : l.position = byteLength (read ++ gap))
      (whole : l.Whole (read ++ gap) cs) (rest : Covers (read ++ gap ++ l.characters) cs ls) :
      Covers read (gap ++ l.characters ++ cs) (l :: ls)

section Covers

variable {read cs : List Char} {l : Lexeme} {ls : List Lexeme}

/-- A blank in front is one more between the lexemes. -/
theorem Covers.blank {c : Char} (hc : Text.isBlank c) (h : Covers (read ++ [c]) cs ls) :
    Covers read (c :: cs) ls := by
  cases h with
  | blanks hcs => exact .blanks (List.forall_mem_cons.mpr ⟨hc, hcs⟩)
  | @lexeme _ gap cs l ls hgap hposition hwhole hrest =>
      have hread : read ++ [c] ++ gap = read ++ c :: gap := List.append_cons .. |>.symm
      rw [hread] at hposition hwhole hrest
      exact .lexeme (List.forall_mem_cons.mpr ⟨hc, hgap⟩) hposition hwhole hrest

/-- A whole lexeme in front is one more lexeme. -/
theorem Covers.next (hposition : l.position = byteLength read) (hwhole : l.Whole read cs)
    (h : Covers (read ++ l.characters) cs ls) : Covers read (l.characters ++ cs) (l :: ls) := by
  rw [← List.append_nil read] at hposition hwhole h
  exact .lexeme (by simp) hposition hwhole h

/-- A parenthesis is whole wherever it stands. -/
theorem whole_of_forall_ne {before after : List Char} (h : ∀ word, l.kind ≠ .word word) :
    l.Whole before after :=
  fun word hword => absurd hword (h word)

/-- What the lexer returns covers the text, unless the text begins within a word. -/
theorem covers_scanFrom (position : Nat) (cs : List Char) :
    ∀ read, byteLength read = position →
      ((∀ c ∈ read.getLast?, ¬ isWordChar c) ∨ ∀ c ∈ cs.head?, ¬ isWordChar c) →
      Covers read cs (scanFrom position cs) := by
  fun_induction scanFrom position cs with
  | case1 =>
      intro read _ _
      exact .blanks (by simp)
  | case2 position cs ih =>
      intro read hposition _
      have hread : byteLength (read ++ ['(']) = position + '('.utf8Size := by
        rw [Text.byteLength_append, Text.byteLength_singleton, hposition]
      have hrest := ih _ hread (.inl (by simp [isWordChar]))
      have hwhole : (Lexeme.mk .opening position).Whole read cs := whole_of_forall_ne (by simp)
      exact .next hposition.symm hwhole hrest
  | case3 position cs _ ih =>
      intro read hposition _
      have hread : byteLength (read ++ [')']) = position + ')'.utf8Size := by
        rw [Text.byteLength_append, Text.byteLength_singleton, hposition]
      have hrest := ih _ hread (.inl (by simp [isWordChar]))
      have hwhole : (Lexeme.mk .closing position).Whole read cs := whole_of_forall_ne (by simp)
      exact .next hposition.symm hwhole hrest
  | case4 position c cs _ _ hc ih =>
      intro read hposition _
      have hread : byteLength (read ++ [c]) = position + c.utf8Size := by
        rw [Text.byteLength_append, Text.byteLength_singleton, hposition]
      exact (ih _ hread (.inl (by simp [isWordChar, hc]))).blank hc
  | case5 position c cs hopen hclose hblank word ih =>
      intro read hposition hborder
      have hsplit : c :: cs = word ++ cs.dropWhile isWordChar := by
        simp only [word, List.cons_append, List.takeWhile_append_dropWhile]
      have hc : isWordChar c := by simp [isWordChar, hopen, hclose, hblank]
      have hwords : ∀ d ∈ word, isWordChar d :=
        List.forall_mem_cons.mpr ⟨hc, fun d hd => List.mem_takeWhile_imp hd⟩
      -- the rest of the text begins with a word, so what has been read does not end in one
      have hleft : ∀ d ∈ read.getLast?, ¬ isWordChar d :=
        hborder.resolve_right fun h => h c rfl hc
      have hright : ∀ d ∈ (cs.dropWhile isWordChar).head?, ¬ isWordChar d := by
        intro d hd
        have hstop := List.head?_dropWhile_not isWordChar cs
        simp_all
      have hwhole : (Lexeme.mk (.word word) position).Whole read (cs.dropWhile isWordChar) := by
        intro w hw
        obtain rfl := LexemeKind.word.inj hw
        exact ⟨List.cons_ne_nil _ _, hwords, hleft, hright⟩
      have hrest := ih (read ++ word) (by rw [Text.byteLength_append, hposition]) (.inr hright)
      rw [hsplit]
      exact .next hposition.symm hwhole hrest

theorem covers_scan (cs : List Char) : Covers [] cs (scan cs) :=
  covers_scanFrom 0 cs [] rfl (.inl (by simp))

/-- A covered text is cut in three by each of its lexemes. -/
theorem Covers.exists_split (h : Covers read cs ls) (hl : l ∈ ls) :
    ∃ before after, read ++ cs = before ++ l.characters ++ after ∧
      l.position = byteLength before ∧ l.Whole before after := by
  induction h with
  | blanks => exact absurd hl List.not_mem_nil
  | @lexeme read gap cs m ms _ hposition hwhole _ ih =>
      rcases List.mem_cons.mp hl with rfl | hl
      · exact ⟨read ++ gap, cs, by simp only [List.append_assoc], hposition, hwhole⟩
      · obtain ⟨before, after, hsplit, hrest⟩ := ih hl
        exact ⟨before, after, by rw [← hsplit]; simp only [List.append_assoc], hrest⟩

/-- The lexemes of a covered text stand behind what has been read, each behind the one before. -/
theorem Covers.apart (h : Covers read cs ls) :
    (∀ l ∈ ls, byteLength read ≤ l.position) ∧
      ls.Pairwise fun l m => l.position + byteLength l.characters ≤ m.position := by
  induction h with
  | blanks => simp
  | @lexeme read gap cs l ls _ hposition _ _ ih =>
      obtain ⟨hbehind, hpairwise⟩ := ih
      rw [Text.byteLength_append, ← hposition] at hbehind
      rw [Text.byteLength_append] at hposition
      refine ⟨List.forall_mem_cons.mpr ⟨by omega, fun m hm => ?_⟩, .cons hbehind hpairwise⟩
      have := hbehind m hm
      omega

/-- A character of a covered text is blank or stands in a lexeme. -/
theorem Covers.blank_or_within (h : Covers read cs ls) {before after : List Char} {c : Char}
    (hcs : cs = before ++ c :: after) :
    Text.isBlank c ∨ ∃ l ∈ ls, l.position ≤ byteLength (read ++ before) ∧
      byteLength (read ++ before) < l.position + byteLength l.characters := by
  induction h generalizing before with
  | blanks hblank => exact .inl (hblank c (by simp [hcs]))
  | @lexeme read gap cs l ls hgap hposition _ _ ih =>
      rw [List.append_assoc] at hcs
      rcases Text.eq_or_eq_of_append_eq hcs with ⟨rest, rfl⟩ | ⟨inner, rfl, hinner⟩
      · exact .inl (hgap c (by simp))
      rcases Text.eq_or_eq_of_append_eq hinner with ⟨rest, hwithin⟩ | ⟨behind, rfl, hbehind⟩
      · refine .inr ⟨l, List.mem_cons_self, ?_⟩
        have hpos := c.utf8Size_pos
        simp only [hposition, hwithin, Text.byteLength_append, Text.byteLength_cons]
        omega
      · simp only [← List.append_assoc] at ih ⊢
        exact (ih hbehind).imp_right fun ⟨m, hm, hbounds⟩ => ⟨m, List.mem_cons_of_mem _ hm, hbounds⟩

/-- Lexemes that cover a text take some of it. -/
theorem Whole.characters_ne_nil {before after : List Char} (h : l.Whole before after) :
    l.characters ≠ [] := by
  unfold characters
  cases hkind : l.kind with
  | word word => exact (h word hkind).1
  | _ => exact List.cons_ne_nil _ _

end Covers

/-! ### One character at a time -/

/-- A lexer between two characters: the lexemes that are done, and the word that it is in with the
byte where the word begins. -/
structure Loop where
  done : List Lexeme := []
  word : List Char := []
  start : Nat := 0

namespace Loop

/-- The lexemes that are done when the word ends. -/
def flush (s : Loop) : List Lexeme :=
  if s.word.isEmpty then s.done else s.done ++ [⟨.word s.word, s.start⟩]

/-- Where the word begins, or would begin with the next character. -/
def origin (s : Loop) (position : Nat) : Nat := if s.word.isEmpty then position else s.start

/-- The lexeme of a character that ends a word, if it has one. -/
def mark (position : Nat) (c : Char) : List Lexeme :=
  if c = '(' then [⟨.opening, position⟩] else if c = ')' then [⟨.closing, position⟩] else []

/-- Takes the character at a byte. -/
def take (s : Loop) (position : Nat) (c : Char) : Loop :=
  if isWordChar c then { s with word := s.word ++ [c], start := s.origin position }
  else { s with done := s.flush ++ mark position c, word := [] }

/-- Takes the characters of a text that begins at a byte. -/
def run (s : Loop) (position : Nat) : List Char → Loop
  | [] => s
  | c :: cs => (s.take position c).run (position + c.utf8Size) cs

/-- The word has word characters and reaches up to the next character. -/
structure Holds (s : Loop) (position : Nat) : Prop where
  wordChars : ∀ c ∈ s.word, isWordChar c
  reaches : s.origin position + byteLength s.word = position

/-- What will have been read with the rest of the text: the lexemes that are done, and those from
the beginning of the word on. -/
def outlook (s : Loop) (position : Nat) (cs : List Char) : List Lexeme :=
  s.done ++ scanFrom (s.origin position) (s.word ++ cs)

variable {s : Loop} {position : Nat} {c : Char}

/-- A character that ends a word is read as its mark. -/
theorem scanFrom_mark (hc : ¬ isWordChar c) (position : Nat) (cs : List Char) :
    scanFrom position (c :: cs) = mark position c ++ scanFrom (position + c.utf8Size) cs := by
  unfold mark
  rw [scanFrom]
  split
  · rfl
  · split
    · rfl
    · have hblank : Text.isBlank c := by simp_all [isWordChar]
      rw [if_pos hblank]
      rfl

/-- The word in hand is flushed as it would have been read. -/
theorem Holds.flush_append (h : s.Holds position) {cs : List Char}
    (hcs : ∀ c ∈ cs.head?, ¬ isWordChar c) :
    s.flush ++ scanFrom position cs = s.outlook position cs := by
  have hreaches := h.reaches
  unfold outlook flush
  unfold origin at hreaches ⊢
  by_cases hword : s.word = []
  · simp [hword]
  · simp only [List.isEmpty_iff, hword, ↓reduceIte] at hreaches ⊢
    rw [scanFrom_word hword h.wordChars hcs, hreaches, List.append_assoc, List.singleton_append]

/-- A character of a word is put behind the word in hand. -/
theorem take_of_isWordChar (hc : isWordChar c) :
    s.take position c = { s with word := s.word ++ [c], start := s.origin position } :=
  if_pos hc

/-- Any other character ends the word in hand. -/
theorem take_of_not_isWordChar (hc : ¬ isWordChar c) :
    s.take position c = { s with done := s.flush ++ mark position c, word := [] } :=
  if_neg hc

/-- A step keeps hold of the word. -/
theorem Holds.take (h : s.Holds position) (c : Char) :
    (s.take position c).Holds (position + c.utf8Size) := by
  by_cases hc : isWordChar c
  · rw [take_of_isWordChar hc]
    have hreaches : s.origin position + byteLength (s.word ++ [c]) = position + c.utf8Size := by
      rw [Text.byteLength_append, Text.byteLength_singleton, ← Nat.add_assoc, h.reaches]
    exact ⟨List.forall_mem_append.mpr ⟨h.wordChars, by simpa using hc⟩,
      by simpa [origin] using hreaches⟩
  · rw [take_of_not_isWordChar hc]
    exact ⟨by simp, rfl⟩

/-- **A step reads nothing twice and loses nothing.**  With one character taken and the others still
to be read, the outlook is what it was. -/
theorem Holds.outlook_take (h : s.Holds position) (c : Char) (cs : List Char) :
    (s.take position c).outlook (position + c.utf8Size) cs = s.outlook position (c :: cs) := by
  by_cases hc : isWordChar c
  · -- the character goes from the text to the word, and the word begins where it did
    simp [take_of_isWordChar hc, outlook, origin]
  · rw [← h.flush_append (by simpa using hc), scanFrom_mark hc, take_of_not_isWordChar hc]
    simp [outlook, origin]

/-- So a run returns what was in sight when it began. -/
theorem Holds.flush_run (h : s.Holds position) (cs : List Char) :
    (s.run position cs).flush = s.outlook position cs := by
  induction cs generalizing s position with
  | nil =>
      have hstop : ∀ c ∈ ([] : List Char).head?, ¬ isWordChar c := by simp
      have hflush := h.flush_append hstop
      rwa [scanFrom, List.append_nil] at hflush
  | cons c cs ih => rw [run, ih (h.take c), h.outlook_take]

/-- The loop returns what the lexer returns. -/
theorem flush_run_eq_scan (cs : List Char) : (run {} 0 cs).flush = scan cs :=
  Holds.flush_run ⟨by simp, rfl⟩ cs

end Loop

/-! ### The lexemes of a text -/

theorem not_isWordChar_iff {c : Char} : ¬ isWordChar c ↔ c = '(' ∨ c = ')' ∨ Text.isBlank c := by
  simp only [isWordChar, ne_eq, decide_not, Bool.and_eq_true, Bool.not_eq_true',
    decide_eq_false_iff_not]
  grind

/-- **Lexing loses nothing.**  A lexer that takes one character at a time and holds the word that it
is in reads the same lexemes.  They stand one behind the other, and each of them stands in the text
at its byte, which is the border of a character; a word is not empty, has neither parentheses nor
blanks in it, and has a parenthesis, a blank or nothing on either side.  What is in no lexeme is
blank. -/
theorem scan_loses_nothing (tree : String) :
    (Loop.run {} 0 tree.toList).flush = scan tree.toList ∧
    (scan tree.toList).Pairwise (fun l m => l.position < m.position ∧
      l.position + (String.ofList l.characters).utf8ByteSize ≤ m.position) ∧
    (∀ l ∈ scan tree.toList, (String.Pos.Raw.mk l.position).IsValid tree ∧
      ∃ before after : String, tree = before ++ String.ofList l.characters ++ after ∧
        before.utf8ByteSize = l.position ∧ ∀ word, l.kind = .word word →
          word ≠ [] ∧ (∀ c ∈ word, c ≠ '(' ∧ c ≠ ')' ∧ ¬ Text.isBlank c) ∧
          (∀ c ∈ before.toList.getLast?, c = '(' ∨ c = ')' ∨ Text.isBlank c) ∧
          ∀ c ∈ after.toList.head?, c = '(' ∨ c = ')' ∨ Text.isBlank c) ∧
    ∀ (before after : String) (c : Char), tree = before ++ String.singleton c ++ after →
      Text.isBlank c ∨ ∃ l ∈ scan tree.toList, l.position ≤ before.utf8ByteSize ∧
        before.utf8ByteSize < l.position + (String.ofList l.characters).utf8ByteSize := by
  have hcovers := covers_scan tree.toList
  refine ⟨Loop.flush_run_eq_scan _, ?_, ?_, ?_⟩
  · refine hcovers.apart.2.imp_of_mem fun hl _ hbehind => ?_
    obtain ⟨_, _, _, _, hwhole⟩ := hcovers.exists_split hl
    have := Text.byteLength_pos hwhole.characters_ne_nil
    rw [Text.utf8ByteSize_ofList]
    omega
  · intro l hl
    obtain ⟨before, after, hsplit, hposition, hwhole⟩ := hcovers.exists_split hl
    rw [List.nil_append] at hsplit
    have htree :
        tree = String.ofList before ++ String.ofList l.characters ++ String.ofList after := by
      rw [← String.ofList_append, ← String.ofList_append, ← hsplit, String.ofList_toList]
    have hbytes : (String.ofList before).utf8ByteSize = l.position :=
      (Text.utf8ByteSize_ofList before).trans hposition.symm
    refine ⟨?_, _, _, htree, hbytes, fun word hword => ?_⟩
    · rw [String.append_assoc] at htree
      exact String.Pos.Raw.isValid_iff_exists_append.mpr
        ⟨_, _, htree, String.Pos.Raw.ext hbytes.symm⟩
    · obtain ⟨hne, hchars, hleft, hright⟩ := hwhole word hword
      rw [String.toList_ofList, String.toList_ofList]
      refine ⟨hne, fun c hc => ?_, fun c hc => not_isWordChar_iff.mp (hleft c hc),
        fun c hc => not_isWordChar_iff.mp (hright c hc)⟩
      have := mt not_isWordChar_iff.mpr (not_not.mpr (hchars c hc))
      simpa using this
  · intro before after c htree
    have hsplit : tree.toList = before.toList ++ c :: after.toList := by
      rw [htree]
      simp
    have hbytes : before.utf8ByteSize = byteLength before.toList := by
      rw [← Text.utf8ByteSize_ofList, String.ofList_toList]
    have hplace := hcovers.blank_or_within hsplit
    simpa only [hbytes, Text.utf8ByteSize_ofList, List.nil_append] using hplace

/-- A wide blank takes three bytes, so the word behind it begins at the seventh; it has two
characters of two bytes, so the parenthesis behind it stands at the twelfth. -/
theorem scan_loses_nothing_wide_blank :
    let tree := "(NP\u3000é*ß)"
    scan tree.toList =
      [⟨.opening, 0⟩, ⟨.word ['N', 'P'], 1⟩, ⟨.word ['é', '*', 'ß'], 6⟩, ⟨.closing, 11⟩] ∧
    (String.Pos.Raw.mk 6).IsValid tree ∧
    ∃ before after : String, tree = before ++ "é*ß" ++ after ∧ before.utf8ByteSize = 6 := by
  intro tree
  have hscan : scan tree.toList =
      [⟨.opening, 0⟩, ⟨.word ['N', 'P'], 1⟩, ⟨.word ['é', '*', 'ß'], 6⟩, ⟨.closing, 11⟩] := by
    decide +kernel
  obtain ⟨_, _, hstands, _⟩ := scan_loses_nothing tree
  obtain ⟨hvalid, before, after, htree, hbytes, _⟩ :=
    hstands ⟨.word ['é', '*', 'ß'], 6⟩ (by rw [hscan]; decide)
  exact ⟨hscan, hvalid, before, after, htree, hbytes⟩

end Lexeme

end MentionAlign
