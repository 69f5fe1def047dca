import MentionAlign.Proofs.Data.Traversal
import MentionAlign.Proofs.Span.FirstSeen
import MentionAlign.Proofs.Span.Format
import MentionAlign.Proofs.Text.Joining

/-!
# The text form of span sets

`Lists` says which items a text lists: its parts between commas, up to the blanks around the whole
and around each part.  `FirstSeen` says what a row of spans comes down to when a span with offsets
seen before is passed over.  Reading goes by these two alone.

* `parse_eq_error_iff`, `parse_eq_ok_iff`: the word `NIL` by itself is the set without members.  Of
  any other text the items that are not blank count.  The first of them that is no span decides the
  error, a text without any is an error of its own, and otherwise the spans first seen are the set.
* `parse_render`: a row of spans, written out, is read as its spans first seen.
* `parse_render_of_parse`: a set that was read has no offsets twice, so it is read back as it is.
-/

namespace MentionAlign

namespace SpanSet

/-- The text lists the items: these are its parts between commas, each without the blanks around
it, where the blanks around the whole do not count. -/
def Lists (cs : List Char) (items : List (List Char)) : Prop :=
  ∃ core parts, Text.Trims cs core ∧ Text.Joins ',' core parts ∧
    List.Forall₂ Text.Trims parts items

/-- The text is the word for the set without members, up to blanks around it. -/
def IsNil (cs : List Char) : Prop := Text.Trims cs ['N', 'I', 'L']

/-- The first item that is neither blank nor a span is refused with the error. -/
def FirstFault (items : List (List Char)) (e : InputError) : Prop :=
  ∃ before item after, items = before ++ item :: after ∧
    (∀ b ∈ before, b ≠ [] → ∃ span, Span.parse (String.ofList b) = .ok span) ∧
    item ≠ [] ∧ Span.parse (String.ofList item) = .error e

/-- The items that are not blank are read as the spans, one by one. -/
def ReadsAs (items : List (List Char)) (spans : List Span) : Prop :=
  List.Forall₂ (fun item span => Span.parse (String.ofList item) = .ok span)
    (items.filter (!·.isEmpty)) spans

section Reading

variable {input : String} {items : List (List Char)} {spans kept : List Span} {e : InputError}

/-- The items that a text lists are what splitting and trimming return. -/
theorem lists_iff {cs : List Char} :
    Lists cs items ↔ (Text.splitAt ',' (Text.trim cs)).map Text.trim = items := by
  constructor
  · rintro ⟨core, parts, hcore, hparts, hitems⟩
    rw [Text.trims_iff.mp hcore, Text.joins_iff.mp hparts]
    have htrimmed : List.Forall₂ (fun part item => Text.trim part = item) parts items :=
      hitems.imp fun _ _ => Text.trims_iff.mp
    rwa [← List.forall₂_map_left_iff, List.forall₂_eq_eq_eq] at htrimmed
  · rintro rfl
    refine ⟨_, _, Text.trims_trim cs, Text.joins_iff.mpr rfl, ?_⟩
    rw [List.forall₂_map_right_iff, List.forall₂_same]
    exact fun part _ => Text.trims_trim part

/-- Every text lists items. -/
theorem exists_lists (cs : List Char) : ∃ items, Lists cs items := ⟨_, lists_iff.mpr rfl⟩

/-- Reading the items that are not blank fails with the error of the first one that is no span. -/
theorem mapM_eq_error_iff_firstFault :
    ((items.filter (!·.isEmpty)).mapM fun item => Span.parse (String.ofList item)) = .error e ↔
      FirstFault items e := by
  rw [mapM_eq_error_iff]
  constructor
  · rintro ⟨before, item, after, hsplit, hbefore, hitem⟩
    obtain ⟨front, back, rfl, rfl, hback⟩ := List.filter_eq_append_iff.mp hsplit
    obtain ⟨blanks, rest, rfl, hblanks, hkept, rfl⟩ := List.filter_eq_cons_iff.mp hback
    refine ⟨front ++ blanks, item, rest, by simp, ?_, by simpa using hkept, hitem⟩
    intro b hb hne
    rcases List.mem_append.mp hb with hb | hb
    · exact hbefore b (List.mem_filter.mpr ⟨hb, by simpa using hne⟩)
    · exact absurd (by simpa using hne) (hblanks b hb)
  · rintro ⟨before, item, after, rfl, hbefore, hne, hitem⟩
    refine ⟨before.filter (!·.isEmpty), item, after.filter (!·.isEmpty), ?_, ?_, hitem⟩
    · rw [List.filter_append, List.filter_cons_of_pos (by simpa using hne)]
    · intro b hb
      obtain ⟨hmem, hkept⟩ := List.mem_filter.mp hb
      exact hbefore b hmem (by simpa using hkept)

/-- No item is left exactly when all are blank. -/
theorem filter_not_isEmpty_eq_nil_iff :
    items.filter (!·.isEmpty) = [] ↔ ∀ item ∈ items, item = [] := by
  rw [List.filter_eq_nil_iff]
  simp

/-- The word `NIL` is read as the set without members. -/
theorem parse_of_isNil (h : IsNil input.toList) : parse input = .ok [] := by
  have hcore : Text.trim input.toList = ['N', 'I', 'L'] := Text.trims_iff.mp h
  simp only [parse, hcore, if_true]

/-- A text that is not `NIL` has to list an item that is not blank, and then those items are
read. -/
theorem parse_of_not_isNil (hlists : Lists input.toList items) (h : ¬ IsNil input.toList) :
    parse input =
      if ∀ item ∈ items, item = [] then .error .emptySpanSet
      else ((items.filter (!·.isEmpty)).mapM fun item => Span.parse (String.ofList item)).map
        List.eraseDups := by
  have hcore : Text.trim input.toList ≠ ['N', 'I', 'L'] := fun heq => h (Text.trims_iff.mpr heq)
  have hparts : parts (Text.trim input.toList) = items.filter (!·.isEmpty) := by
    rw [parts, lists_iff.mp hlists]
  simp only [parse, if_neg hcore, hparts]
  by_cases hall : ∀ item ∈ items, item = []
  · rw [if_pos hall, filter_not_isEmpty_eq_nil_iff.mpr hall]
  · rw [if_neg hall]
    split
    · next hnone => exact absurd (filter_not_isEmpty_eq_nil_iff.mp hnone) hall
    · rfl

/-- A span is never refused for being no set. -/
theorem span_parse_ne_emptySpanSet (text : String) : Span.parse text ≠ .error .emptySpanSet := by
  rcases Span.parse_cases text with ⟨start, stop, -, hparse⟩ | ⟨-, hparse⟩
  · rw [hparse]
    exact fun h => absurd (Span.ofOffsets_eq_error_iff.mp h).1 (by simp)
  · rw [hparse]
    simp

/-- A text is refused when it lists blank items alone, or with the error of its first fault. -/
theorem parse_eq_error_iff (hlists : Lists input.toList items) :
    parse input = .error e ↔
      ¬ IsNil input.toList ∧
        ((∀ item ∈ items, item = []) ∧ e = .emptySpanSet ∨ FirstFault items e) := by
  by_cases hnil : IsNil input.toList
  · simp [hnil, parse_of_isNil hnil]
  rw [parse_of_not_isNil hlists hnil]
  split
  · next hall =>
      constructor
      · intro h
        exact ⟨hnil, .inl ⟨hall, (Except.error.inj h).symm⟩⟩
      · rintro ⟨-, ⟨-, rfl⟩ | ⟨before, item, after, rfl, -, hne, -⟩⟩
        · rfl
        · exact absurd (hall item (by simp)) hne
  · next hsome =>
      rw [map_eq_error_iff, mapM_eq_error_iff_firstFault]
      simp [hnil, hsome]

/-- The word `NIL` is no span. -/
theorem span_parse_nil_ne_ok (span : Span) :
    Span.parse (String.ofList ['N', 'I', 'L']) ≠ .ok span := by
  intro h
  obtain ⟨core, first, last, hcore, hcount, -⟩ := (Span.parse_eq_ok_iff.mp h).1
  rw [String.toList_ofList] at hcore
  rw [← Text.trims_iff.mp hcore] at hcount
  exact absurd hcount (by decide)

/-- The word `NIL` by itself is the only item of its text. -/
theorem Lists.eq_of_isNil {cs : List Char} (hlists : Lists cs items) (h : IsNil cs) :
    items = [['N', 'I', 'L']] := by
  have hcore : Text.trim cs = ['N', 'I', 'L'] := Text.trims_iff.mp h
  rw [← lists_iff.mp hlists, hcore]
  decide

/-- Items with the word `NIL` among them are not read as spans. -/
theorem not_readsAs_of_nil_mem (h : ['N', 'I', 'L'] ∈ items) : ¬ ReadsAs items spans := by
  intro hreads
  have hkept : ['N', 'I', 'L'] ∈ items.filter (!·.isEmpty) := List.mem_filter.mpr ⟨h, rfl⟩
  have hread := mapM_eq_ok_iff_forall₂.mpr hreads
  obtain ⟨span, hspan⟩ := exists_mapM_iff.mp ⟨_, hread⟩ _ hkept
  exact span_parse_nil_ne_ok span hspan

/-- A text is accepted as the word `NIL`, or when its items that are not blank are spans, at least
one. -/
theorem parse_eq_ok_iff (hlists : Lists input.toList items) :
    parse input = .ok kept ↔
      IsNil input.toList ∧ kept = [] ∨
        ∃ spans, spans ≠ [] ∧ ReadsAs items spans ∧ FirstSeen spans kept := by
  by_cases hnil : IsNil input.toList
  · have hmem : ['N', 'I', 'L'] ∈ items := by
      rw [hlists.eq_of_isNil hnil]
      exact List.mem_singleton_self _
    rw [parse_of_isNil hnil]
    constructor
    · intro h
      exact .inl ⟨hnil, (Except.ok.inj h).symm⟩
    · rintro (⟨-, rfl⟩ | ⟨spans, -, hreads, -⟩)
      · rfl
      · exact absurd hreads (not_readsAs_of_nil_mem hmem)
  · rw [parse_of_not_isNil hlists hnil]
    simp only [hnil, false_and, false_or]
    split
    · next hall =>
        simp only [reduceCtorEq, false_iff]
        rintro ⟨spans, hne, hreads, -⟩
        rw [ReadsAs, filter_not_isEmpty_eq_nil_iff.mpr hall, List.forall₂_nil_left_iff] at hreads
        exact hne hreads
    · next hsome =>
        rw [map_eq_ok_iff]
        constructor
        · rintro ⟨spans, hread, hkept⟩
          have hreads : ReadsAs items spans := mapM_eq_ok_iff_forall₂.mp hread
          refine ⟨spans, ?_, hreads, firstSeen_iff.mpr hkept⟩
          rintro rfl
          exact hsome (filter_not_isEmpty_eq_nil_iff.mp (List.forall₂_nil_right_iff.mp hreads))
        · rintro ⟨spans, -, hreads, hkept⟩
          exact ⟨spans, mapM_eq_ok_iff_forall₂.mpr hreads, firstSeen_iff.mp hkept⟩

end Reading

section Writing

variable {input : String} {spans kept : List Span}

/-- The text form of a row of spans lists the text forms of the spans. -/
theorem lists_render (hne : spans ≠ []) :
    Lists (render spans).toList (spans.map fun s => s.render.toList) := by
  have hparts : ∀ part ∈ spans.map fun s => s.render.toList, ∀ c ∈ part,
      c.isDigit = true ∨ c = '-' :=
    List.forall_mem_map.mpr fun _ _ _ hc => Span.isDigit_or_eq_hyphen_of_mem_render hc
  have hblank : ∀ c : Char, c.isDigit = true ∨ c = '-' → ¬ Text.isBlank c := by
    rintro c (hdigit | rfl)
    · exact Text.not_isBlank_of_isDigit hdigit
    · decide
  have hjoined : (render spans).toList = [','].intercalate (spans.map fun s => s.render.toList) := by
    rw [render, if_neg (by simpa using hne), String.toList_intercalate, List.map_map]
    rfl
  refine ⟨(render spans).toList, _, ?_, ⟨by simpa using hne, ?_, hjoined⟩, ?_⟩
  · rw [hjoined]
    exact Text.trims_self (Text.forall_mem_intercalate
      (List.forall_mem_singleton.mpr (by decide)) fun part hpart c hc =>
        hblank c (hparts part hpart c hc))
  · intro part hpart hcomma
    rcases hparts part hpart ',' hcomma with hdigit | heq
    · exact absurd hdigit (by decide)
    · exact absurd heq (by decide)
  · rw [List.forall₂_same]
    exact fun part hpart => Text.trims_self fun c hc => hblank c (hparts part hpart c hc)

/-- The text forms of spans are read back as the spans. -/
theorem readsAs_render (hrange : ∀ s ∈ spans, s.InRange) :
    ReadsAs (spans.map fun s => s.render.toList) (spans.map Span.offsetsOnly) := by
  have hkept : (spans.map fun s => s.render.toList).filter (!·.isEmpty) =
      spans.map fun s => s.render.toList := by
    refine List.filter_eq_self.mpr (List.forall_mem_map.mpr fun s _ => ?_)
    simp [Span.toList_render]
  rw [ReadsAs, hkept, List.forall₂_map_left_iff, List.forall₂_map_right_iff, List.forall₂_same]
  intro s hs
  have hread : Span.parse ("" ++ s.render ++ "") = .ok s.offsetsOnly :=
    Span.parse_render (hrange s hs) (by simp) (by simp)
  simpa using hread

/-- **Writing and reading.**  A row of spans, written out, is read as its spans first seen. -/
theorem parse_render (hrange : ∀ s ∈ spans, s.InRange) (hkept : FirstSeen spans kept) :
    parse (render spans) = .ok (kept.map Span.offsetsOnly) := by
  by_cases hne : spans = []
  · subst hne
    obtain rfl : [] = kept := firstSeen_iff.mp hkept
    rfl
  · refine (parse_eq_ok_iff (lists_render hne)).mpr (.inr ⟨_, ?_, readsAs_render hrange, ?_⟩)
    · simpa using hne
    · exact hkept.offsetsOnly

/-- A set that was read has no two spans with equal offsets. -/
theorem pairwise_of_parse (h : parse input = .ok kept) :
    kept.Pairwise fun s t => ¬ s == t := by
  obtain ⟨items, hitems⟩ := exists_lists input.toList
  rcases (parse_eq_ok_iff hitems).mp h with ⟨-, rfl⟩ | ⟨spans, -, -, hkept⟩
  · exact .nil
  · exact hkept.pairwise

/-- The spans of a set that was read have offsets in range and no text. -/
theorem plain_of_parse (h : parse input = .ok kept) :
    ∀ s ∈ kept, s.InRange ∧ s.text = none := by
  obtain ⟨items, hitems⟩ := exists_lists input.toList
  rcases (parse_eq_ok_iff hitems).mp h with ⟨-, rfl⟩ | ⟨spans, -, hreads, hkept⟩
  · simp
  · intro s hs
    have hread := mapM_eq_ok_iff.mp (mapM_eq_ok_iff_forall₂.mpr hreads)
    have hmem : Except.ok s ∈ spans.map (Except.ok : Span → Except InputError Span) :=
      List.mem_map_of_mem (hkept.subset s hs)
    obtain ⟨item, -, hitem⟩ := List.mem_map.mp (hread ▸ hmem)
    exact ⟨Span.inRange_of_parse hitem, (Span.parse_eq_ok_iff.mp hitem).2⟩

/-- **Reading and writing.**  A set that was read, written out, is read as itself. -/
theorem parse_render_of_parse (h : parse input = .ok kept) : parse (render kept) = .ok kept := by
  have hplain := plain_of_parse h
  have hself : kept.map Span.offsetsOnly = kept := by
    calc kept.map Span.offsetsOnly
        = kept.map id := List.map_congr_left fun s hs =>
          Span.eq_iff.mpr ⟨rfl, rfl, (hplain s hs).2.symm⟩
      _ = kept := List.map_id kept
  rw [parse_render (fun s hs => (hplain s hs).1) (firstSeen_self (pairwise_of_parse h)), hself]

end Writing

/-- **The text form of span sets.**  A row of spans, written out, is read as its spans first seen,
and a row without spans is written `NIL`.  A set that was read has no offsets twice and is read back
as it is.  Of any text the items count, up to blanks.  The error of a text with blank items alone is
that it has no members, and any other error is that of the first item that is neither blank nor a
span.  A text with the word `NIL` among its items is accepted only as this word by itself, and any
other text only as its items first seen. -/
theorem reads_back_first_seen :
    (∀ spans : List Span, (∀ s ∈ spans, s.InRange) →
      ∃ kept, FirstSeen spans kept ∧ parse (render spans) = .ok (kept.map Span.offsetsOnly)) ∧
    render [] = "NIL" ∧
    (∀ (input : String) (kept : List Span), parse input = .ok kept →
      kept.Pairwise (fun s t => ¬ s == t) ∧ parse (render kept) = .ok kept) ∧
    ∀ input : String, ∃ items, Lists input.toList items ∧
      (parse input = .error .emptySpanSet ↔ ∀ item ∈ items, item = []) ∧
      (∀ e, e ≠ .emptySpanSet →
        (parse input = .error e ↔ ¬ IsNil input.toList ∧ FirstFault items e)) ∧
      (['N', 'I', 'L'] ∈ items → ((∃ kept, parse input = .ok kept) ↔ IsNil input.toList)) ∧
      ∀ kept, parse input = .ok kept ↔
        IsNil input.toList ∧ kept = [] ∨
          ∃ spans, spans ≠ [] ∧ ReadsAs items spans ∧ FirstSeen spans kept := by
  refine ⟨fun spans hrange => ?_, rfl, fun input kept h => ?_, fun input => ?_⟩
  · exact ⟨_, firstSeen_iff.mpr rfl, parse_render hrange (firstSeen_iff.mpr rfl)⟩
  · exact ⟨pairwise_of_parse h, parse_render_of_parse h⟩
  obtain ⟨items, hitems⟩ := exists_lists input.toList
  have herror : ∀ e, parse input = .error e ↔ _ := fun _ => parse_eq_error_iff hitems
  have hok : ∀ kept, parse input = .ok kept ↔ _ := fun _ => parse_eq_ok_iff hitems
  have hfault : ¬ FirstFault items .emptySpanSet := by
    rintro ⟨_, item, _, _, _, _, hitem⟩
    exact span_parse_ne_emptySpanSet _ hitem
  refine ⟨items, hitems, ?_, fun e he => ?_, fun hmem => ?_, hok⟩
  · rw [herror]
    constructor
    · rintro ⟨-, ⟨hall, -⟩ | h⟩
      · exact hall
      · exact absurd h hfault
    · intro hall
      refine ⟨fun hnil => ?_, .inl ⟨hall, rfl⟩⟩
      have hmem : ['N', 'I', 'L'] ∈ items := hitems.eq_of_isNil hnil ▸ List.mem_singleton_self _
      exact absurd (hall _ hmem) (by decide)
  · rw [herror]
    simp [he]
  · constructor
    · rintro ⟨kept, hkept⟩
      rcases (hok kept).mp hkept with ⟨hnil, -⟩ | ⟨spans, -, hreads, -⟩
      · exact hnil
      · exact absurd hreads (not_readsAs_of_nil_mem hmem)
    · exact fun hnil => ⟨[], parse_of_isNil hnil⟩

/-- A span met again without its text is passed over, and the set is read back; behind a blank item
a span out of order is the first fault; and the word `NIL` beside a span is no set. -/
theorem reads_back_first_seen_repeated_span :
    let row : List Span := [{ start := 101, stop := 104, text := some "Asia" },
      { start := 108, stop := 109 }, { start := 101, stop := 104 }]
    let set : List Span := [{ start := 101, stop := 104 }, { start := 108, stop := 109 }]
    (∀ s ∈ row, s.InRange) ∧ parse (render row) = .ok set ∧ parse (render set) = .ok set ∧
    parse " , 109-108,x" = .error (.invalidSpan 109 108) ∧
    ¬ ∃ kept, parse "101-104,NIL" = .ok kept := by
  intro row set
  obtain ⟨hwrite, -, hback, htext⟩ := reads_back_first_seen
  have hrange : ∀ s ∈ row, s.InRange := by
    simp [row, Span.InRange, Text.offsetBound]
  have hrow : parse (render row) = .ok set := by
    obtain ⟨kept, hkept, hparse⟩ := hwrite row hrange
    obtain rfl := firstSeen_iff.mp hkept
    exact hparse
  refine ⟨hrange, hrow, (hback _ set hrow).2, ?_, ?_⟩
  · obtain ⟨items, hitems, -, herror, -⟩ := htext " , 109-108,x"
    obtain rfl := lists_iff.mp hitems
    refine (herror (.invalidSpan 109 108) (by decide)).mpr ⟨fun hnil => ?_, ?_⟩
    · exact absurd (Text.trims_iff.mp hnil) (by decide)
    · exact ⟨[[]], "109-108".toList, ["x".toList], by decide, by simp, by decide, rfl⟩
  · obtain ⟨items, hitems, -, -, hword, -⟩ := htext "101-104,NIL"
    obtain rfl := lists_iff.mp hitems
    rw [hword (by decide)]
    exact fun hnil => absurd (Text.trims_iff.mp hnil) (by decide)

end SpanSet

end MentionAlign
