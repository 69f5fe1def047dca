import MentionAlign.Fixture.Basic
import MentionAlign.Proofs.Gold.RoundTrip

/-!
# The gold data of a fixture

A fixture writes the spans of its gold data as texts.  They are all read before the kind of any
argument is looked at, so the gold data is read in two passes over the same nesting.
`Fixture.spanTexts` lists the texts in the order in which the first pass comes to them, and
`Fixture.arguments` the arguments in the order of the second one.

* `Fixture.map_spans_rawGold`: the spans that the first pass returns are those of the texts.  So it
  fails with the fault of the first text that is no span.
* `Fixture.map_arguments_gold`: behind a first pass that succeeds, the second one reads argument by
  argument.  So it fails with the first argument of unknown kind.
-/

namespace MentionAlign

namespace FixtureArgument

/-- The texts that an argument writes spans in.  The head of a filler is one of them. -/
def spanTexts (a : FixtureArgument) : List String := a.extent :: a.head.toList

/-- The argument is of a known kind. -/
def KnownKind (a : FixtureArgument) : Prop := a.kind = "entity" ∨ a.kind = "filler"

/-- The mention that an argument is read as.  An entity mention has the head that is written, and
the cluster, or its own identifier where no cluster is written.  What is written as the head of a
filler has to be a span and is dropped. -/
inductive ReadsAs (a : FixtureArgument) : GoldMention → Prop
  | entity {extent : Span} {head : Option Span} (kind : a.kind = "entity")
      (reads : Span.parse a.extent = .ok extent)
      (readsHead : Option.Rel (fun text span => Span.parse text = .ok span) a.head head) :
      ReadsAs a (.entity
        { id := ⟨a.id⟩, entity := a.entity.getD a.id, extent, head, role := a.role })
  | filler {extent : Span} {head : Option Span} (kind : a.kind = "filler")
      (reads : Span.parse a.extent = .ok extent)
      (readsHead : Option.Rel (fun text span => Span.parse text = .ok span) a.head head) :
      ReadsAs a (.filler { id := ⟨a.id⟩, extent, role := a.role })

end FixtureArgument

/-- The texts that an event mention writes spans in: the trigger, and then argument by argument the
extent and the head. -/
def FixtureMention.spanTexts (m : FixtureMention) : List String :=
  m.trigger.toList ++ m.arguments.flatMap FixtureArgument.spanTexts

/-- The texts that an event writes spans in, mention by mention. -/
def FixtureEvent.spanTexts (e : FixtureEvent) : List String :=
  e.mentions.flatMap FixtureMention.spanTexts

/-- The arguments of an event, in nesting order. -/
def FixtureEvent.arguments (e : FixtureEvent) : List FixtureArgument :=
  e.mentions.flatMap FixtureMention.arguments

namespace Fixture

/-- The texts that a fixture writes spans of gold data in, in reading order. -/
def spanTexts (f : Fixture) : List String := f.events.flatMap FixtureEvent.spanTexts

/-- The arguments of a fixture, in nesting order. -/
def arguments (f : Fixture) : List FixtureArgument := f.events.flatMap FixtureEvent.arguments

end Fixture

section Spans

theorem FixtureArgument.map_spans_toRaw (a : FixtureArgument) :
    a.toRaw.map RawMention.spans = a.spanTexts.mapM Span.parse := by
  rw [spanTexts, mapM_cons_eq_bind, ← mapM_toList]
  unfold toRaw
  cases Span.parse a.extent <;> cases a.head.mapM Span.parse <;> rfl

theorem FixtureMention.map_spans_toRaw (m : FixtureMention) :
    m.toRaw.map (EventMention.spans RawMention.spans) = m.spanTexts.mapM Span.parse := by
  rw [spanTexts, List.mapM_append, ← mapM_toList,
    ← mapM_flatMap fun a _ => FixtureArgument.map_spans_toRaw a]
  unfold toRaw
  cases m.trigger.mapM Span.parse <;> cases m.arguments.mapM FixtureArgument.toRaw <;> rfl

theorem FixtureEvent.map_spans_toRaw (e : FixtureEvent) :
    e.toRaw.map (Event.spans RawMention.spans) = e.spanTexts.mapM Span.parse := by
  rw [spanTexts, ← mapM_flatMap fun m _ => FixtureMention.map_spans_toRaw m]
  unfold toRaw
  cases e.mentions.mapM FixtureMention.toRaw <;> rfl

/-- **The first pass.**  The spans of the records of a fixture are what its texts are read as, one
after the other. -/
theorem Fixture.map_spans_rawGold (f : Fixture) :
    f.rawGold.map (GoldDocument.spans RawMention.spans) = f.spanTexts.mapM Span.parse := by
  rw [spanTexts, ← mapM_flatMap fun e _ => FixtureEvent.map_spans_toRaw e]
  unfold rawGold
  cases f.events.mapM FixtureEvent.toRaw <;> rfl

end Spans

section Arguments

theorem FixtureMention.mapM_toRaw_of_ok {m : FixtureMention} {raw : EventMention RawMention}
    (h : m.toRaw = .ok raw) : m.arguments.mapM FixtureArgument.toRaw = .ok raw.arguments := by
  obtain ⟨trigger, -, h⟩ := bind_eq_ok_iff.mp h
  obtain ⟨arguments, harguments, h⟩ := bind_eq_ok_iff.mp h
  obtain rfl := Except.ok.inj h
  exact harguments

theorem FixtureEvent.mapM_toRaw_of_ok {e : FixtureEvent} {raw : Event RawMention}
    (h : e.toRaw = .ok raw) : e.arguments.mapM FixtureArgument.toRaw =
      .ok (raw.mentions.flatMap EventMention.arguments) := by
  obtain ⟨mentions, hmentions, h⟩ := bind_eq_ok_iff.mp h
  obtain rfl := Except.ok.inj h
  exact mapM_flatMap_of_ok (fun _ _ => FixtureMention.mapM_toRaw_of_ok) hmentions

theorem Fixture.mapM_toRaw_of_ok {f : Fixture} {raw : GoldDocument RawMention}
    (h : f.rawGold = .ok raw) :
    f.arguments.mapM FixtureArgument.toRaw = .ok raw.arguments := by
  obtain ⟨events, hevents, h⟩ := bind_eq_ok_iff.mp h
  obtain rfl := Except.ok.inj h
  exact mapM_flatMap_of_ok (fun _ _ => FixtureEvent.mapM_toRaw_of_ok) hevents

/-- The mention that an argument stands for, its spans read before its kind is looked at. -/
def FixtureArgument.toMention (a : FixtureArgument) : Except InputError GoldMention :=
  a.toRaw.bind GoldMention.ofRaw

/-- **The second pass.**  Once the spans of a fixture are read, its gold data is read argument by
argument, in nesting order. -/
theorem Fixture.map_arguments_gold {f : Fixture} {raw : GoldDocument RawMention}
    (h : f.rawGold = .ok raw) :
    f.gold.map GoldDocument.arguments = f.arguments.mapM FixtureArgument.toMention := by
  have hgold : f.gold = GoldDocument.ofRaw raw := by
    unfold gold
    rw [h]
    rfl
  rw [hgold, GoldDocument.ofRaw, GoldDocument.mapM_arguments, mapM_bind_of_ok (mapM_toRaw_of_ok h)]
  rfl

end Arguments

namespace FixtureArgument

variable {a : FixtureArgument} {raw : RawMention}

/-- The record of an argument has everything that is written, with its spans read. -/
theorem toRaw_eq_ok_iff :
    a.toRaw = .ok raw ↔ ∃ extent head, Span.parse a.extent = .ok extent ∧
      Option.Rel (fun text span => Span.parse text = .ok span) a.head head ∧
      raw = { id := a.id, kind := a.kind, entity := a.entity, extent, head, role := a.role } := by
  have hsteps : a.toRaw = .ok raw ↔ ∃ extent, Span.parse a.extent = .ok extent ∧
      ∃ head, a.head.mapM Span.parse = .ok head ∧ Except.ok (ε := InputError)
        { id := a.id, kind := a.kind, entity := a.entity, extent, head, role := a.role } =
          .ok raw := by
    unfold toRaw
    exact bind_eq_ok_iff.trans (exists_congr fun _ => and_congr_right fun _ => bind_eq_ok_iff)
  rw [hsteps]
  simp only [mapM_option_eq_ok_iff, Except.ok.injEq, eq_comm (b := raw), exists_and_left]

/-- What an argument is read as. -/
theorem toMention_eq_ok_iff {m : GoldMention} : a.toMention = .ok m ↔ a.ReadsAs m := by
  unfold toMention
  rw [bind_eq_ok_iff]
  constructor
  · rintro ⟨raw, hraw, hm⟩
    obtain ⟨extent, head, hextent, hhead, rfl⟩ := toRaw_eq_ok_iff.mp hraw
    unfold GoldMention.ofRaw at hm
    split at hm
    · next hkind =>
        obtain rfl := Except.ok.inj hm
        exact .entity hkind hextent hhead
    · split at hm
      · next hkind =>
          obtain rfl := Except.ok.inj hm
          exact .filler hkind hextent hhead
      · cases hm
  · rintro (⟨hkind, hextent, hhead⟩ | ⟨hkind, hextent, hhead⟩)
    · refine ⟨_, toRaw_eq_ok_iff.mpr ⟨_, _, hextent, hhead, rfl⟩, ?_⟩
      exact if_pos hkind
    · refine ⟨_, toRaw_eq_ok_iff.mpr ⟨_, _, hextent, hhead, rfl⟩, ?_⟩
      have hentity : a.kind ≠ "entity" := by
        rw [hkind]
        decide
      exact (if_neg hentity).trans (if_pos hkind)

/-- Once its spans are read, an argument is refused for its kind alone. -/
theorem toMention_eq_error_iff (h : a.toRaw = .ok raw) {e : InputError} :
    a.toMention = .error e ↔ ¬ a.KnownKind ∧ e = .unknownMentionKind a.id a.kind := by
  unfold toMention
  rw [h]
  obtain ⟨extent, head, -, -, rfl⟩ := toRaw_eq_ok_iff.mp h
  exact GoldMention.ofRaw_eq_error_iff

theorem exists_toMention_iff (h : a.toRaw = .ok raw) :
    (∃ m, a.toMention = .ok m) ↔ a.KnownKind := by
  unfold toMention
  rw [h]
  obtain ⟨extent, head, -, -, rfl⟩ := toRaw_eq_ok_iff.mp h
  exact GoldMention.exists_ofRaw_iff

end FixtureArgument

namespace Fixture

variable {f : Fixture} {raw : GoldDocument RawMention} {e : InputError}

/-- The first pass succeeds exactly when every text is a span. -/
theorem exists_rawGold_iff :
    (∃ raw, f.rawGold = .ok raw) ↔ ∀ text ∈ f.spanTexts, ∃ span, Span.parse text = .ok span := by
  rw [← exists_mapM_iff, ← map_spans_rawGold, exists_map_eq_ok_iff]

/-- The first pass fails exactly with the fault of the first text that is no span. -/
theorem rawGold_eq_error_iff :
    f.rawGold = .error e ↔ ∃ before bad after, f.spanTexts = before ++ bad :: after ∧
      (∀ text ∈ before, ∃ span, Span.parse text = .ok span) ∧ Span.parse bad = .error e := by
  rw [← mapM_eq_error_iff, ← map_spans_rawGold, map_eq_error_iff]

/-- Behind a first pass that succeeds, every argument has its spans read. -/
theorem exists_toRaw_of_mem (h : f.rawGold = .ok raw) :
    ∀ a ∈ f.arguments, ∃ r, a.toRaw = .ok r :=
  exists_mapM_iff.mp ⟨_, mapM_toRaw_of_ok h⟩

/-- The second pass succeeds exactly when the kinds of all arguments are known. -/
theorem exists_gold_iff_of_rawGold (h : f.rawGold = .ok raw) :
    (∃ gold, f.gold = .ok gold) ↔ ∀ a ∈ f.arguments, a.KnownKind := by
  have hread := exists_toRaw_of_mem h
  have hkinds : (∀ a ∈ f.arguments, ∃ m, a.toMention = .ok m) ↔
      ∀ a ∈ f.arguments, a.KnownKind := by
    refine forall₂_congr fun a ha => ?_
    obtain ⟨r, hr⟩ := hread a ha
    exact FixtureArgument.exists_toMention_iff hr
  rw [← hkinds, ← exists_mapM_iff, ← map_arguments_gold h, exists_map_eq_ok_iff]

/-- The second pass fails exactly with the first argument of unknown kind. -/
theorem gold_eq_error_iff_of_rawGold (h : f.rawGold = .ok raw) :
    f.gold = .error e ↔ ∃ before bad after, f.arguments = before ++ bad :: after ∧
      (∀ a ∈ before, a.KnownKind) ∧ ¬ bad.KnownKind ∧ e = .unknownMentionKind bad.id bad.kind := by
  have hread := exists_toRaw_of_mem h
  have hwalk : f.gold = .error e ↔ f.arguments.mapM FixtureArgument.toMention = .error e := by
    rw [← map_arguments_gold h, map_eq_error_iff]
  rw [hwalk, mapM_eq_error_iff]
  refine exists_congr fun before => exists_congr fun bad => exists_congr fun after => ?_
  refine and_congr_right fun hsplit => ?_
  rw [hsplit] at hread
  obtain ⟨hbefore, hrest⟩ := List.forall_mem_append.mp hread
  obtain ⟨r, hbad⟩ := hrest bad List.mem_cons_self
  rw [FixtureArgument.toMention_eq_error_iff hbad]
  refine and_congr_left fun _ => forall₂_congr fun a ha => ?_
  obtain ⟨r, hr⟩ := hbefore a ha
  exact FixtureArgument.exists_toMention_iff hr

/-- What is read has a mention for each argument, in order. -/
theorem forall₂_readsAs_of_gold {gold : GoldDocument GoldMention} (h : f.gold = .ok gold) :
    List.Forall₂ FixtureArgument.ReadsAs f.arguments gold.inventory.mentions := by
  obtain ⟨raw, hraw, -⟩ := bind_eq_ok_iff.mp h
  have harguments := map_arguments_gold hraw
  rw [h] at harguments
  have hread : f.arguments.mapM FixtureArgument.toMention = .ok gold.arguments := harguments.symm
  exact (mapM_eq_ok_iff_forall₂.mp hread).imp fun _ _ => FixtureArgument.toMention_eq_ok_iff.mp

/-- **Spans before kinds.**  The gold data of a fixture is read exactly when every text that is
written for a span is one, the head of a filler included, and every argument is of a known kind.  It
then has a mention for each argument, in nesting order.  Otherwise the first text that is no span is
the error, whatever stands before it, and only when all of them are spans the first argument of
unknown kind. -/
theorem gold_reads_spans_before_kinds (f : Fixture) :
    ((∃ gold, f.gold = .ok gold) ↔
      (∀ text ∈ f.spanTexts, ∃ span, Span.parse text = .ok span) ∧
        ∀ a ∈ f.arguments, a.KnownKind) ∧
    (∀ gold, f.gold = .ok gold →
      List.Forall₂ FixtureArgument.ReadsAs f.arguments gold.inventory.mentions) ∧
    ∀ e, f.gold = .error e ↔
      (∃ before bad after, f.spanTexts = before ++ bad :: after ∧
        (∀ text ∈ before, ∃ span, Span.parse text = .ok span) ∧ Span.parse bad = .error e) ∨
      ((∀ text ∈ f.spanTexts, ∃ span, Span.parse text = .ok span) ∧
        ∃ before bad after, f.arguments = before ++ bad :: after ∧
          (∀ a ∈ before, a.KnownKind) ∧ ¬ bad.KnownKind ∧
          e = .unknownMentionKind bad.id bad.kind) := by
  refine ⟨?_, fun gold => forall₂_readsAs_of_gold, fun e => ?_⟩
  · rw [← exists_rawGold_iff]
    constructor
    · rintro ⟨gold, hgold⟩
      obtain ⟨raw, hraw, -⟩ := bind_eq_ok_iff.mp hgold
      exact ⟨⟨raw, hraw⟩, (exists_gold_iff_of_rawGold hraw).mp ⟨gold, hgold⟩⟩
    · rintro ⟨⟨raw, hraw⟩, hkinds⟩
      exact (exists_gold_iff_of_rawGold hraw).mpr hkinds
  · rw [← exists_rawGold_iff, ← rawGold_eq_error_iff]
    constructor
    · intro hgold
      rcases bind_eq_error_iff.mp hgold with hspan | ⟨raw, hraw, -⟩
      · exact .inl hspan
      · exact .inr ⟨⟨raw, hraw⟩, (gold_eq_error_iff_of_rawGold hraw).mp hgold⟩
    · rintro (hspan | ⟨⟨raw, hraw⟩, hkind⟩)
      · exact bind_eq_error_iff.mpr (.inl hspan)
      · exact (gold_eq_error_iff_of_rawGold hraw).mpr hkind

/-- The head of a filler in the second event comes before the unknown kind in the first one.  When
the head is a span the kind is the error, and when the kind is known both arguments are mentions,
the one without a cluster in a cluster of its own. -/
theorem gold_reads_spans_before_kinds_two_faults :
    let fixture := fun kind head : String =>
      ({ document := { id := "d" }
         events := [
          { id := "e1", mentions := [
            { id := "m1", eventType := "E", trigger := some "30-37"
              arguments := [{ id := "a", kind, extent := "10-14", role := "Agent" }] }] },
          { id := "e2", mentions := [
            { id := "m2", eventType := "E"
              arguments := [
                { id := "b", kind := "filler", extent := "40-47", head := some head,
                  role := "Time" }] }] }] } : Fixture)
    (fixture "relation" "47-40").gold = .error (.invalidSpan 47 40) ∧
    (fixture "relation" "46-47").gold = .error (.unknownMentionKind "a" "relation") ∧
    ∃ gold, (fixture "entity" "46-47").gold = .ok gold ∧
      gold.inventory.mentions.map GoldMention.scoringId = [⟨"a"⟩, ⟨"b"⟩] := by
  intro fixture
  have hread : ∀ text ∈ ["30-37", "10-14", "40-47", "46-47"],
      ∃ span, Span.parse text = .ok span := by
    simp only [List.forall_mem_cons, List.not_mem_nil, false_implies, implies_true, and_true]
    exact ⟨⟨_, rfl⟩, ⟨_, rfl⟩, ⟨_, rfl⟩, ⟨_, rfl⟩⟩
  refine ⟨?_, ?_, ?_⟩
  · refine ((gold_reads_spans_before_kinds _).2.2 _).mpr (.inl ?_)
    exact ⟨["30-37", "10-14", "40-47"], "47-40", [], rfl,
      fun text htext => hread text (List.mem_append_left _ htext), rfl⟩
  · refine ((gold_reads_spans_before_kinds _).2.2 _).mpr (.inr ⟨hread, ?_⟩)
    refine ⟨[], _, _, rfl, by simp, ?_, rfl⟩
    simp [FixtureArgument.KnownKind]
  · obtain ⟨hok, hmentions, _⟩ := gold_reads_spans_before_kinds (fixture "entity" "46-47")
    obtain ⟨gold, hgold⟩ := hok.mpr ⟨hread, by
      simp [fixture, arguments, FixtureEvent.arguments, FixtureArgument.KnownKind]⟩
    refine ⟨gold, hgold, ?_⟩
    obtain ⟨m, _, hm, htail, hall⟩ := List.forall₂_cons_left_iff.mp (hmentions gold hgold)
    obtain ⟨n, _, hn, hnil, rfl⟩ := List.forall₂_cons_left_iff.mp htail
    rw [hall, List.forall₂_nil_left_iff.mp hnil]
    cases hm with
    | filler hkind => exact absurd hkind (by decide)
    | entity =>
        cases hn with
        | entity hkind => exact absurd hkind (by decide)
        | filler => rfl

end Fixture

end MentionAlign
