import MentionAlign.Gold.Notation
import MentionAlign.Proofs.Gold.Reading
import MentionAlign.Proofs.Ron.Codec
import MentionAlign.Proofs.Structured.Span

/-!
# Gold documents survive writing and reading

A gold document is written with a raw record for each mention, and read by deciding the kind of each
record.  Two things make the way back exact.  The raw record of a mention reads as that mention, and
a reading that succeeds keeps every argument at its place, so the raw document reads as the document
(`GoldDocument.ofRaw_toRaw`).  And each raw record, event mention, event and document is shown by
its structured data, one level of records around the other, each with everything that it holds; so
every notation that keeps the law `TextCodec.ReadsBack` gives it back.

The one condition on a document is that offsets fit 64 bits, as they do wherever a span is built
from a program's numbers.
-/

namespace MentionAlign

/-- The spans of a record. -/
def RawMention.spans (m : RawMention) : List Span := m.extent :: m.head.toList

/-- The spans of a mention. -/
def GoldMention.spans (m : GoldMention) : List Span := m.extent :: m.head?.toList

/-- The record of a mention has the spans of the mention. -/
theorem GoldMention.spans_toRaw (m : GoldMention) : m.toRaw.spans = m.spans := by cases m <;> rfl

section Documents

variable {α β : Type}

/-- The spans of an event mention: its trigger, and those of its arguments. -/
def EventMention.spans (spansOf : α → List Span) (m : EventMention α) : List Span :=
  m.trigger.toList ++ m.arguments.flatMap spansOf

/-- The spans of an event: those of its mentions. -/
def Event.spans (spansOf : α → List Span) (e : Event α) : List Span :=
  e.mentions.flatMap (·.spans spansOf)

/-- The spans of a document. -/
def GoldDocument.spans (spansOf : α → List Span) (doc : GoldDocument α) : List Span :=
  doc.events.flatMap (·.spans spansOf)

/-- A document with its arguments replaced has the spans of the new arguments. -/
theorem GoldDocument.spans_map (spansOf : β → List Span) (f : α → β) (doc : GoldDocument α) :
    (doc.map f).spans spansOf = doc.spans (spansOf ∘ f) := by
  simp only [spans, map, Event.spans, Event.map, EventMention.spans, EventMention.map,
    List.flatMap_map]
  rfl

variable {read : Decoder α} {write : α → Datum} {n : Nat}

/-- An event mention is shown if its arguments are. -/
theorem EventMention.shows_toDatum {m : EventMention α} (hn : 2 ≤ n)
    (htrigger : ∀ s ∈ m.trigger, s.InRange)
    (harguments : ∀ a ∈ m.arguments, Datum.Shows read n (write a) a) :
    Datum.Shows (ofDatum read) (n + 4) (m.toDatum write) m := by
  have hid := Datum.Shows.text m.id
  have htype := Datum.Shows.text m.eventType
  have htrigger : Datum.Shows (Datum.toOption Span.ofDatum) 4 (.ofOption Span.toDatum m.trigger)
      m.trigger := .ofOption fun s hs => Span.shows_toDatum (htrigger s hs)
  have harguments : Datum.Shows (Datum.toList read) (n + 2) (.ofList write m.arguments)
      m.arguments := .ofList harguments
  refine .record (n := n + 2) ["id", "event_type", "trigger", "arguments"] rfl (by decide) (.refl _)
    (by simp) ?_ ?_
  · exact ((((hid.finds rfl).map EventMention.mk).seq (htype.finds rfl)).seq
      (htrigger.finds rfl)).seq (harguments.finds rfl)
  · simp only [List.forall_mem_cons, List.not_mem_nil, false_implies, implies_true, and_true]
    exact ⟨hid.fits (by omega), htype.fits (by omega), htrigger.fits (by omega),
      harguments.fits (Nat.le_refl _)⟩

theorem Event.shows_toDatum {e : Event α}
    (hmentions : ∀ m ∈ e.mentions,
      Datum.Shows (EventMention.ofDatum read) n (m.toDatum write) m) :
    Datum.Shows (ofDatum read) (n + 4) (e.toDatum write) e := by
  have hid := Datum.Shows.text e.id
  have hmentions : Datum.Shows (Datum.toList (EventMention.ofDatum read)) (n + 2)
      (.ofList (EventMention.toDatum write) e.mentions) e.mentions := .ofList hmentions
  refine .record (n := n + 2) ["id", "mentions"] rfl (by decide) (.refl _)
    (by simp) ?_ ?_
  · exact ((hid.finds rfl).map Event.mk).seq (hmentions.finds rfl)
  · simp only [List.forall_mem_cons, List.not_mem_nil, false_implies, implies_true, and_true]
    exact ⟨hid.fits (by omega), hmentions.fits (Nat.le_refl _)⟩

theorem GoldDocument.shows_toDatum {doc : GoldDocument α}
    (hevents : ∀ e ∈ doc.events, Datum.Shows (Event.ofDatum read) n (e.toDatum write) e) :
    Datum.Shows (ofDatum read) (n + 4) (doc.toDatum write) doc := by
  have hid := Datum.Shows.text doc.docId
  have hevents : Datum.Shows (Datum.toList (Event.ofDatum read)) (n + 2)
      (.ofList (Event.toDatum write) doc.events) doc.events := .ofList hevents
  refine .record (n := n + 2) ["doc_id", "events"] rfl (by decide) (.refl _)
    (by simp) ?_ ?_
  · exact ((hid.finds rfl).map GoldDocument.mk).seq (hevents.finds rfl)
  · simp only [List.forall_mem_cons, List.not_mem_nil, false_implies, implies_true, and_true]
    exact ⟨hid.fits (by omega), hevents.fits (Nat.le_refl _)⟩

end Documents

/-- A raw record is shown with all its fields. -/
theorem RawMention.shows_toDatum {m : RawMention} (h : ∀ s ∈ m.spans, s.InRange) :
    Datum.Shows ofDatum 6 m.toDatum m := by
  have hid := Datum.Shows.text m.id
  have hkind := Datum.Shows.text m.kind
  have hentity : Datum.Shows (Datum.toOption Datum.toText) 1 (.ofOption .text m.entity) m.entity :=
    .ofOption fun s _ => .text s
  have hextent : Datum.Shows Span.ofDatum 3 m.extent.toDatum m.extent :=
    Span.shows_toDatum (h m.extent List.mem_cons_self)
  have hhead : Datum.Shows (Datum.toOption Span.ofDatum) 4 (.ofOption Span.toDatum m.head) m.head :=
    .ofOption fun s hs =>
      Span.shows_toDatum (h s (List.mem_cons_of_mem _ (Option.mem_toList.mpr hs)))
  have hrole := Datum.Shows.text m.role
  refine .record (n := 4) ["id", "kind", "entity", "extent", "head", "role"] rfl (by decide)
    (.refl _) (by simp) ?_ ?_
  · exact ((((((hid.finds rfl).map RawMention.mk).seq (hkind.finds rfl)).seq
      (hentity.finds rfl)).seq (hextent.finds rfl)).seq (hhead.finds rfl)).seq (hrole.finds rfl)
  · simp only [List.forall_mem_cons, List.not_mem_nil, false_implies, implies_true, and_true]
    exact ⟨hid.fits (by decide), hkind.fits (by decide), hentity.fits (by decide),
      hextent.fits (by decide), hhead.fits (by decide), hrole.fits (by decide)⟩

namespace GoldDocument

/-- **Records are shown where they stand.**  A document of raw records whose offsets fit 64 bits is
shown with all that it holds, eighteen levels deep at most. -/
theorem shows_raw {doc : GoldDocument RawMention}
    (h : ∀ s ∈ doc.spans RawMention.spans, s.InRange) :
    Datum.Shows (ofDatum RawMention.ofDatum) 18 (doc.toDatum RawMention.toDatum) doc := by
  refine shows_toDatum fun e he => Event.shows_toDatum fun m hm =>
    EventMention.shows_toDatum (by decide) (fun s hs => ?_) fun a ha =>
      RawMention.shows_toDatum fun s hs => ?_
  all_goals
    refine h s (List.mem_flatMap.mpr ⟨e, he, List.mem_flatMap.mpr ⟨m, hm, ?_⟩⟩)
  · exact List.mem_append_left _ (Option.mem_toList.mpr hs)
  · exact List.mem_append_right _ (List.mem_flatMap.mpr ⟨a, ha, hs⟩)

/-- The raw document of a document reads as that document. -/
theorem ofRaw_toRaw (doc : GoldDocument GoldMention) : ofRaw doc.toRaw = .ok doc := by
  have hrecords : GoldMention.ofRaw ∘ GoldMention.toRaw = Except.ok :=
    funext GoldMention.ofRaw_toRaw
  rw [ofRaw, mapM_eq_ok_iff, toRaw, map_map, hrecords]

/-- **Gold documents survive writing and reading.**  The raw document of a document reads as that
document.  Take any notation in which writing and reading are inverse, eighteen levels deep at
least.  If the offsets of a document fit 64 bits, the document is written in this notation, and the
text is read as the same document, with its inventory and the texts of its spans. -/
theorem reads_back {codec : TextCodec} {depth : Nat} (hcodec : codec.ReadsBack depth)
    (hdepth : 18 ≤ depth) (doc : GoldDocument GoldMention) :
    ofRaw doc.toRaw = .ok doc ∧
      ((∀ s ∈ doc.spans GoldMention.spans, s.InRange) →
        ∃ s back, doc.write? codec = some s ∧ read codec s = .ok back ∧ back = doc ∧
          back.inventory = doc.inventory) := by
  refine ⟨ofRaw_toRaw doc, fun hspans => ?_⟩
  have hraw : ∀ s ∈ doc.toRaw.spans RawMention.spans, s.InRange := by
    have hsame : RawMention.spans ∘ GoldMention.toRaw = GoldMention.spans :=
      funext GoldMention.spans_toRaw
    rwa [toRaw, spans_map, hsame]
  obtain ⟨s, hwrite, hdecode⟩ := hcodec.decode_encode (a := doc.toRaw) (shows_raw hraw) hdepth
  refine ⟨s, doc, hwrite, ?_, rfl, rfl⟩
  rw [read, hdecode]
  exact congrArg (Except.mapError GoldReadError.input) (ofRaw_toRaw doc)

/-- A document with the largest offset, with quotes, a backslash, a line feed and a combining accent
in its texts, with a cluster, a head and a filler, in object notation. -/
theorem reads_back_quoted_texts :
    let trigger : Span := { start := 1, stop := 4, text := some "a\"b\\\n" }
    let head : Span := { start := 6, stop := 8, text := some "Zoë" }
    let person : GoldMention :=
      .entity { id := ⟨"m1"⟩, entity := "it's", extent := { start := 6, stop := 9 }, head,
                role := "Agent" }
    let time : GoldMention :=
      .filler { id := ⟨"e\u0301"⟩, extent := { start := 10, stop := 18446744073709551615 },
                role := "" }
    let doc : GoldDocument GoldMention :=
      { docId := "d\x00"
        events := [
          { id := "e1", mentions := [
            { id := "em1", eventType := "Attack", trigger, arguments := [person, time] }] },
          { id := "e2" }] }
    ofRaw doc.toRaw = .ok doc ∧
      ∃ s back, doc.write? Ron.codec = some s ∧ read Ron.codec s = .ok back ∧ back = doc ∧
        back.inventory = doc.inventory := by
  intro trigger head person time doc
  obtain ⟨hraw, htext⟩ := reads_back Ron.codec_readsBack (by decide) doc
  refine ⟨hraw, htext ?_⟩
  have hspans : doc.spans GoldMention.spans = [trigger, person.extent, head, time.extent] := rfl
  rw [hspans]
  simp [Span.InRange, Text.offsetBound, trigger, head, person, time, GoldMention.extent]

end GoldDocument

end MentionAlign
