import MentionAlign.Proofs.Text.Offsets
import MentionAlign.Proofs.Text.Trimming
import MentionAlign.Span.Text

/-!
# The format of spans

`Span.Writes` says which texts write two offsets: between blanks stands one hyphen, with a numeral
between blanks on either side of it.  Reading a span goes by this and by the order of the offsets
alone.  A text that writes offsets in order is read as their span, one that writes them out of order
is refused with the offsets, and any other text is refused as it stands.  The text form of a span is
a text that writes its offsets, so it is read back, blanks around it or not.
-/

namespace MentionAlign

namespace Span

/-- The text writes the two offsets: without the blanks around it, it has one hyphen, and without
the blanks around them, the parts before and behind the hyphen stand for the offsets. -/
def Writes (cs : List Char) (start stop : Nat) : Prop :=
  ∃ core first last, Text.Trims cs core ∧ core.count '-' = 1 ∧ core = first ++ '-' :: last ∧
    (∃ numeral, Text.Trims first numeral ∧ Text.WritesOffset numeral start) ∧
    ∃ numeral, Text.Trims last numeral ∧ Text.WritesOffset numeral stop

variable {input : String} {start stop : Nat} {span : Span}

/-- A part of a text stands for an offset, up to blanks, exactly when the offset is read from it. -/
theorem readOffset_trim_eq_some_iff {part : List Char} :
    Text.readOffset (Text.trim part) = some start ↔
      ∃ numeral, Text.Trims part numeral ∧ Text.WritesOffset numeral start := by
  simp only [Text.trims_iff, exists_eq_left', Text.readOffset_eq_some_iff]

/-- Of a text that writes two offsets only the order of these is left to look at. -/
theorem parse_of_writes (h : Writes input.toList start stop) :
    parse input = ofOffsets start stop := by
  obtain ⟨core, first, last, hcore, hcount, hparts, hfirst, hlast⟩ := h
  have hsplit : Text.splitAt '-' (Text.trim input.toList) = [first, last] := by
    rw [Text.trims_iff.mp hcore]
    exact Text.splitAt_eq_pair_iff.mpr ⟨hcount, hparts⟩
  rw [parse, hsplit]
  simp only [List.map_cons, List.map_nil, readOffset_trim_eq_some_iff.mpr hfirst,
    readOffset_trim_eq_some_iff.mpr hlast]

/-- A text that writes no two offsets is malformed. -/
theorem parse_of_not_writes (h : ¬ ∃ start stop, Writes input.toList start stop) :
    parse input = .error (.malformedSpan input) := by
  unfold parse
  split
  · next first last hparts =>
      split
      · next start stop hstart hstop =>
          refine absurd ⟨start, stop, ?_⟩ h
          obtain ⟨rawFirst, rest, hsplit, rfl, hrest⟩ := List.map_eq_cons_iff.mp hparts
          obtain ⟨rawLast, rfl, rfl⟩ := List.map_eq_singleton_iff.mp hrest
          obtain ⟨hcount, hjoined⟩ := Text.splitAt_eq_pair_iff.mp hsplit
          exact ⟨_, rawFirst, rawLast, Text.trims_trim _, hcount, hjoined,
            readOffset_trim_eq_some_iff.mp hstart, readOffset_trim_eq_some_iff.mp hstop⟩
      · rfl
  · rfl

/-- Every text writes two offsets, whose order decides, or is malformed. -/
theorem parse_cases (input : String) :
    (∃ start stop, Writes input.toList start stop ∧ parse input = ofOffsets start stop) ∨
      (¬ ∃ start stop, Writes input.toList start stop) ∧
        parse input = .error (.malformedSpan input) := by
  by_cases h : ∃ start stop, Writes input.toList start stop
  · obtain ⟨start, stop, hwrites⟩ := h
    exact .inl ⟨start, stop, hwrites, parse_of_writes hwrites⟩
  · exact .inr ⟨h, parse_of_not_writes h⟩

/-- Exactly a text that writes the offsets of a span is read as a span with them; the span carries
no text. -/
theorem parse_eq_ok_iff :
    parse input = .ok span ↔ Writes input.toList span.start span.stop ∧ span.text = none := by
  constructor
  · intro h
    rcases parse_cases input with ⟨start, stop, hwrites, hparse⟩ | ⟨_, hparse⟩
    · obtain ⟨rfl, rfl, htext⟩ := ofOffsets_eq_ok_iff.mp (hparse.symm.trans h)
      exact ⟨hwrites, htext⟩
    · exact absurd (hparse.symm.trans h) (by simp)
  · rintro ⟨hwrites, htext⟩
    rw [parse_of_writes hwrites]
    exact ofOffsets_eq_ok_iff.mpr ⟨rfl, rfl, htext⟩

/-- Offsets that are read lie in range. -/
theorem inRange_of_parse (h : parse input = .ok span) : span.InRange := by
  obtain ⟨_, _, _, _, _, _, _, _, _, hstop⟩ := (parse_eq_ok_iff.mp h).1
  exact hstop.2

/-- Exactly a text that writes offsets out of order is refused with them. -/
theorem parse_eq_invalidSpan_iff :
    parse input = .error (.invalidSpan start stop) ↔
      Writes input.toList start stop ∧ stop < start := by
  constructor
  · intro h
    rcases parse_cases input with ⟨a, b, hwrites, hparse⟩ | ⟨_, hparse⟩
    · obtain ⟨heq, horder⟩ := ofOffsets_eq_error_iff.mp (hparse.symm.trans h)
      obtain ⟨rfl, rfl⟩ := InputError.invalidSpan.inj heq
      exact ⟨hwrites, horder⟩
    · exact absurd (hparse.symm.trans h) (by simp)
  · rintro ⟨hwrites, horder⟩
    rw [parse_of_writes hwrites]
    exact ofOffsets_eq_error_iff.mpr ⟨rfl, horder⟩

/-- Exactly a text that writes no two offsets is refused as it stands. -/
theorem parse_eq_malformedSpan_iff :
    parse input = .error (.malformedSpan input) ↔
      ¬ ∃ start stop, Writes input.toList start stop := by
  constructor
  · intro h
    rcases parse_cases input with ⟨a, b, _, hparse⟩ | ⟨hnone, _⟩
    · exact absurd (ofOffsets_eq_error_iff.mp (hparse.symm.trans h)).1 (by simp)
    · exact hnone
  · exact parse_of_not_writes

/-- The text form of a span has its two offsets as digits, with a hyphen between them. -/
theorem toList_render (s : Span) :
    s.render.toList = Nat.toDigits 10 s.start ++ '-' :: Nat.toDigits 10 s.stop := by
  simp [render]

/-- No hyphen is among the digits of a number. -/
theorem hyphen_notMem_toDigits (n : Nat) : '-' ∉ Nat.toDigits 10 n := fun h =>
  absurd (Text.isDigit_of_mem_toDigits h) (by decide)

/-- Spans have the same text form exactly when their offsets are the same. -/
theorem render_eq_iff {s t : Span} : s.render = t.render ↔ (s == t) = true := by
  have hdigits : ∀ {m n : Nat}, Nat.toDigits 10 m = Nat.toDigits 10 n → m = n := by
    intro m n h
    rw [← Nat.ofDigitChars_ten_toDigits (n := m), h, Nat.ofDigitChars_ten_toDigits]
  constructor
  · intro h
    have hchars := congrArg String.toList h
    rw [toList_render, toList_render, List.append_cons_inj_of_notMem (hyphen_notMem_toDigits _)
      (hyphen_notMem_toDigits _)] at hchars
    exact beq_iff.mpr ⟨hdigits hchars.1, hdigits hchars.2.2⟩
  · intro h
    obtain ⟨hstart, hstop⟩ := beq_iff.mp h
    rw [render, render, hstart, hstop]

/-- The text form of a span consists of digits and a hyphen. -/
theorem isDigit_or_eq_hyphen_of_mem_render {s : Span} {c : Char} (h : c ∈ s.render.toList) :
    c.isDigit = true ∨ c = '-' := by
  rw [toList_render, List.mem_append, List.mem_cons] at h
  rcases h with h | rfl | h
  · exact .inl (Text.isDigit_of_mem_toDigits h)
  · exact .inr rfl
  · exact .inl (Text.isDigit_of_mem_toDigits h)

/-- The text form of a span, between blanks, writes its offsets. -/
theorem writes_render (hrange : span.InRange) {before after : List Char}
    (hbefore : ∀ c ∈ before, Text.isBlank c) (hafter : ∀ c ∈ after, Text.isBlank c) :
    Writes (before ++ span.render.toList ++ after) span.start span.stop := by
  -- a digit is neither a blank nor a hyphen: nothing of the text form is trimmed, and it is split
  -- at its own hyphen
  have hdigits : ∀ n, ∀ c ∈ Nat.toDigits 10 n, ¬ Text.isBlank c := fun _ _ hc =>
    Text.not_isBlank_of_isDigit (Text.isDigit_of_mem_toDigits hc)
  have hhyphen : ∀ n, (Nat.toDigits 10 n).count '-' = 0 := fun n =>
    List.count_eq_zero.mpr (hyphen_notMem_toDigits n)
  have hnumeral : ∀ n < Text.offsetBound, ∃ numeral, Text.Trims (Nat.toDigits 10 n) numeral ∧
      Text.WritesOffset numeral n := fun n hn =>
    ⟨_, Text.trims_self (hdigits n), ⟨_, .inl rfl, Text.denotes_toDigits n⟩, hn⟩
  have hrender : ∀ c ∈ span.render.toList, ¬ Text.isBlank c := by
    rw [toList_render]
    exact List.forall_mem_append.mpr
      ⟨hdigits _, List.forall_mem_cons.mpr ⟨by decide, hdigits _⟩⟩
  refine ⟨span.render.toList, _, _, (Text.trims_self hrender).between hbefore hafter, ?_,
    toList_render span, hnumeral _ (Nat.lt_of_le_of_lt span.start_le_stop hrange),
    hnumeral _ hrange⟩
  rw [toList_render, List.count_append, List.count_cons_self, hhyphen, hhyphen]

/-- The text form of a span, between blanks, is read back. -/
theorem parse_render (hrange : span.InRange) {before after : String}
    (hbefore : ∀ c ∈ before.toList, Text.isBlank c) (hafter : ∀ c ∈ after.toList, Text.isBlank c) :
    parse (before ++ span.render ++ after) = .ok span.offsetsOnly := by
  refine parse_eq_ok_iff.mpr ⟨?_, rfl⟩
  rw [String.toList_append, String.toList_append]
  exact writes_render hrange hbefore hafter

/-- **The format of spans.**  A span with two offsets is read from exactly the texts that write them
in order; exactly a text that writes them out of order is refused with them; exactly a text that
writes no offsets is refused as it stands.  So the text form of a span is read back as the span,
whatever blanks surround it. -/
theorem parse_reads_format :
    (∀ (input : String) (start stop : Nat),
      ((∃ span, parse input = .ok span ∧ span.start = start ∧ span.stop = stop) ↔
        Writes input.toList start stop ∧ start ≤ stop) ∧
      (parse input = .error (.invalidSpan start stop) ↔
        Writes input.toList start stop ∧ stop < start)) ∧
    (∀ input : String, parse input = .error (.malformedSpan input) ↔
      ¬ ∃ start stop, Writes input.toList start stop) ∧
    ∀ (span : Span) (before after : String), span.InRange →
      (∀ c ∈ before.toList, Text.isBlank c) → (∀ c ∈ after.toList, Text.isBlank c) →
      parse (before ++ span.render ++ after) = .ok span.offsetsOnly := by
  refine ⟨fun input start stop => ⟨?_, parse_eq_invalidSpan_iff⟩,
    fun _ => parse_eq_malformedSpan_iff,
    fun _ _ _ hrange hbefore hafter => parse_render hrange hbefore hafter⟩
  constructor
  · rintro ⟨span, hparse, rfl, rfl⟩
    exact ⟨(parse_eq_ok_iff.mp hparse).1, span.start_le_stop⟩
  · rintro ⟨hwrites, horder⟩
    refine ⟨{ start, stop, start_le_stop := horder }, ?_, rfl, rfl⟩
    exact parse_eq_ok_iff.mpr ⟨hwrites, rfl⟩

/-- A plus sign, leading zeros and blanks do not matter to a span or to its refusal, and the text
form between a tab and a line end is read back. -/
theorem parse_reads_signs_zeros_and_blanks :
    (∃ span, parse "\t+0057 - 68\u00a0" = .ok span ∧ span.start = 57 ∧ span.stop = 68) ∧
    parse "68-0057" = .error (.invalidSpan 68 57) ∧
    parse " 57 " = .error (.malformedSpan " 57 ") ∧
    parse ("\t" ++ render { start := 57, stop := 68 } ++ "\n") =
      .ok { start := 57, stop := 68 } := by
  obtain ⟨hoffsets, hmalformed, hrender⟩ := parse_reads_format
  have hreads : ∀ part start, Text.readOffset (Text.trim part) = some start →
      ∃ numeral, Text.Trims part numeral ∧ Text.WritesOffset numeral start :=
    fun _ _ => readOffset_trim_eq_some_iff.mp
  have hsigned : Writes "\t+0057 - 68\u00a0".toList 57 68 :=
    ⟨_, "+0057 ".toList, " 68".toList, Text.trims_trim _, by decide, by decide,
      hreads _ _ (by decide), hreads _ _ (by decide)⟩
  have hswapped : Writes "68-0057".toList 68 57 :=
    ⟨_, "68".toList, "0057".toList, Text.trims_trim _, by decide, by decide,
      hreads _ _ (by decide), hreads _ _ (by decide)⟩
  have hsingle : ¬ ∃ start stop, Writes " 57 ".toList start stop := by
    rintro ⟨_, _, core, first, last, htrims, hcount, _⟩
    rw [← Text.trims_iff.mp htrims] at hcount
    exact absurd hcount (by decide)
  exact ⟨(hoffsets _ 57 68).1.mpr ⟨hsigned, by decide⟩,
    (hoffsets _ 68 57).2.mpr ⟨hswapped, by decide⟩, (hmalformed _).mpr hsingle,
    hrender _ "\t" "\n" (show 68 < Text.offsetBound by decide)
      (List.all_eq_true.mp (by decide)) (List.all_eq_true.mp (by decide))⟩

end Span

end MentionAlign
