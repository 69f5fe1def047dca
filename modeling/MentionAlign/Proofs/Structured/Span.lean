import MentionAlign.Proofs.Data.Shown
import MentionAlign.Structured.Span

/-!
# Spans survive their structured form

The record of a span holds its offsets and its text, so that reading gives the span back with its
text and not only an equal one.  Offsets have to fit 64 bits, which is all that a reader refuses
about the record of a span.
-/

namespace MentionAlign.Span

variable {s : Span}

/-- The entries of the record of a span; the text is the one that may be missing. -/
def entries (s : Span) : List (String × Datum) :=
  [("start", .natural s.start), ("end", .natural s.stop)]
    ++ s.text.toList.map fun text => ("text", .present (.text text))

/-- What holds of the two offsets and of the text holds of all entries. -/
theorem forall_mem_entries {p : String × Datum → Prop} (hstart : p ("start", .natural s.start))
    (hend : p ("end", .natural s.stop))
    (htext : ∀ text ∈ s.text, p ("text", .present (.text text))) : ∀ e ∈ s.entries, p e := by
  simp only [entries, List.cons_append, List.nil_append, List.forall_mem_cons, List.forall_mem_map]
  exact ⟨hstart, hend, by simpa using htext⟩

/-- The names of the entries stand in one order. -/
theorem names_sublist (s : Span) : (s.entries.map Prod.fst).Sublist ["start", "end", "text"] := by
  unfold entries
  cases s.text with
  | none => exact (by decide : ["start", "end"].Sublist ["start", "end", "text"])
  | some text => exact .refl _

/-- **A span is read back with its text.** -/
theorem shows_toDatum (h : s.InRange) : Datum.Shows ofDatum 3 s.toDatum s := by
  have hstart : Datum.Shows Datum.toNatural 0 (.natural s.start) s.start :=
    .natural (Nat.lt_of_le_of_lt s.start_le_stop h)
  have hstop : Datum.Shows Datum.toNatural 0 (.natural s.stop) s.stop := .natural h
  have hvalue : Datum.Shows (Datum.toOption Datum.toText) 1 (.ofOption .text s.text) s.text :=
    .ofOption fun text _ => .text text
  have htext : (FieldReader.defaulted "text" (Datum.toOption Datum.toText) none).Finds s.entries
      s.text := by
    cases htext : s.text with
    | none => exact FieldReader.finds_field_of_missing (by rw [entries, htext]; rfl) rfl
    | some text =>
        have hlookup : s.entries.lookup "text" = some (.present (.text text)) := by
          rw [entries, htext]
          rfl
        rw [htext] at hvalue
        exact hvalue.finds hlookup
  have hfinds : reader.Finds s.entries (s.start, s.stop, s.text) :=
    (((hstart.finds rfl).map _).seq (hstop.finds rfl)).seq htext
  have hrecord : Datum.Shows (Datum.toRecord "SpanRepr" reader) 3 s.toDatum
      (s.start, s.stop, s.text) :=
    .record ["start", "end", "text"] rfl (by decide) s.names_sublist (by simp) hfinds
      (forall_mem_entries (hstart.fits (by decide)) (hstop.fits (by decide))
        fun text _ => ⟨.present (.text text), Nat.le_refl 1⟩)
  refine ⟨hrecord.plain, hrecord.nesting_le, fun format hformat => ?_⟩
  have hvalidate : validate (s.start, s.stop, s.text) = .ok s := dif_pos s.start_le_stop
  rw [ofDatum, hrecord.decodes format hformat]
  exact hvalidate

end MentionAlign.Span
