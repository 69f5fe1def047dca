import MentionAlign.Gold
import MentionAlign.Proofs.Data.Traversal

/-!
# Reading the records of a gold document

The arguments of a gold document stand inside event mentions, which stand inside events.  There are
two ways from raw records to the inventory of mentions: to read the records where they stand and lay
the mentions behind each other, or to lay the records behind each other and read that list.  Both are
the same (`GoldDocument.mapM_arguments`), because a reading goes through the nesting in order and
ends at the first record that it cannot read.

A reading that succeeds leaves everything around the arguments as it is, and each argument at its
place: `GoldDocument.mapM_eq_ok_iff` says so by one equation between documents.
-/

namespace MentionAlign

/-- The record is of a known kind. -/
def RawMention.KnownKind (raw : RawMention) : Prop := raw.kind = "entity" ∨ raw.kind = "filler"

namespace GoldMention

/-- A record is read exactly when its kind is known. -/
theorem exists_ofRaw_iff {raw : RawMention} : (∃ m, ofRaw raw = .ok m) ↔ raw.KnownKind := by
  unfold ofRaw RawMention.KnownKind
  split
  · next h => simp [h]
  · split
    · next h => simp [h]
    · next hentity hfiller => simp [hentity, hfiller]

/-- A record of unknown kind is the error, under its identifier and with its kind. -/
theorem ofRaw_eq_error_iff {raw : RawMention} {e : InputError} :
    ofRaw raw = .error e ↔ ¬ raw.KnownKind ∧ e = .unknownMentionKind raw.id raw.kind := by
  unfold ofRaw RawMention.KnownKind
  split
  · next h => simp [h]
  · split
    · next h => simp [h]
    · next hentity hfiller => simp [hentity, hfiller, eq_comm]

end GoldMention

section Nesting

variable {α β γ ε : Type} {f : α → Except ε β}

namespace EventMention

/-- An event mention is read by reading its arguments. -/
theorem mapM_eq_map (f : α → Except ε β) (m : EventMention α) :
    m.mapM f = (m.arguments.mapM f).map fun arguments => { m with arguments } := by
  unfold mapM
  cases m.arguments.mapM f <;> rfl

/-- What is read of an event mention has the arguments that are read of its arguments. -/
theorem mapM_arguments (f : α → Except ε β) (m : EventMention α) :
    (m.mapM f).map arguments = m.arguments.mapM f := by
  rw [mapM_eq_map]
  cases m.arguments.mapM f <;> rfl

/-- An event mention reads as another one exactly when each argument, at its place, reads as the one
there. -/
theorem mapM_eq_ok_iff (m : EventMention α) (n : EventMention β) :
    m.mapM f = .ok n ↔ m.map f = n.map .ok := by
  have harguments : m.arguments.mapM f = .ok n.arguments ↔ _ := MentionAlign.mapM_eq_ok_iff
  obtain ⟨id, eventType, trigger, arguments⟩ := m
  obtain ⟨id', eventType', trigger', arguments'⟩ := n
  rw [mapM_eq_map]
  simp only [map, EventMention.mk.injEq, ← harguments]
  cases arguments.mapM f <;> simp [Except.map]

end EventMention

namespace Event

theorem mapM_eq_map (f : α → Except ε β) (e : Event α) :
    e.mapM f = (e.mentions.mapM (EventMention.mapM f)).map fun mentions => { e with mentions } := by
  unfold mapM
  cases e.mentions.mapM (EventMention.mapM f) <;> rfl

theorem mapM_arguments (f : α → Except ε β) (e : Event α) :
    (e.mapM f).map (fun e => e.mentions.flatMap EventMention.arguments) =
      (e.mentions.flatMap EventMention.arguments).mapM f := by
  rw [mapM_eq_map, ← mapM_flatMap fun m _ => EventMention.mapM_arguments f m]
  cases e.mentions.mapM (EventMention.mapM f) <;> rfl

theorem mapM_eq_ok_iff (e : Event α) (d : Event β) : e.mapM f = .ok d ↔ e.map f = d.map .ok := by
  have hmentions : e.mentions.mapM (EventMention.mapM f) = .ok d.mentions ↔ _ :=
    mapM_eq_ok_iff_map_eq EventMention.mapM_eq_ok_iff
  obtain ⟨id, mentions⟩ := e
  obtain ⟨id', mentions'⟩ := d
  rw [mapM_eq_map]
  simp only [map, Event.mk.injEq, ← hmentions]
  cases mentions.mapM (EventMention.mapM f) <;> simp [Except.map]

end Event

namespace GoldDocument

theorem mapM_eq_map (f : α → Except ε β) (doc : GoldDocument α) :
    doc.mapM f = (doc.events.mapM (Event.mapM f)).map fun events => { doc with events } := by
  unfold mapM
  cases doc.events.mapM (Event.mapM f) <;> rfl

/-- **Both ways are the same.**  The arguments of what is read of a document are what is read of its
arguments, and the reading of either fails with the same error. -/
theorem mapM_arguments (f : α → Except ε β) (doc : GoldDocument α) :
    (doc.mapM f).map arguments = doc.arguments.mapM f := by
  unfold arguments
  rw [mapM_eq_map, ← mapM_flatMap fun e _ => Event.mapM_arguments f e]
  cases doc.events.mapM (Event.mapM f) <;> rfl

/-- **Everything stays at its place.**  A document reads as another one exactly when each argument,
at its place, reads as the one there. -/
theorem mapM_eq_ok_iff (doc : GoldDocument α) (d : GoldDocument β) :
    doc.mapM f = .ok d ↔ doc.map f = d.map .ok := by
  have hevents : doc.events.mapM (Event.mapM f) = .ok d.events ↔ _ :=
    mapM_eq_ok_iff_map_eq Event.mapM_eq_ok_iff
  obtain ⟨docId, events⟩ := doc
  obtain ⟨docId', events'⟩ := d
  rw [mapM_eq_map]
  simp only [map, GoldDocument.mk.injEq, ← hevents]
  cases events.mapM (Event.mapM f) <;> simp [Except.map]

/-- Replacing arguments twice is replacing them once. -/
theorem map_map (f : α → β) (g : β → γ) (doc : GoldDocument α) :
    (doc.map f).map g = doc.map (g ∘ f) := by
  simp [map, Event.map, EventMention.map]

/-- A document with nothing left of its arguments but their places. -/
def frame (doc : GoldDocument α) : GoldDocument Unit := doc.map fun _ => ()

theorem frame_map (f : α → β) (doc : GoldDocument α) : (doc.map f).frame = doc.frame :=
  map_map f _ doc

/-- Reading arguments keeps their places. -/
theorem frame_eq_of_mapM {doc : GoldDocument α} {d : GoldDocument β} (h : doc.mapM f = .ok d) :
    d.frame = doc.frame := by
  have hplaces := congrArg frame ((mapM_eq_ok_iff doc d).mp h)
  rw [frame_map, frame_map] at hplaces
  exact hplaces.symm

end GoldDocument

end Nesting

section Records

variable {raw : List RawMention}

/-- An inventory is the list of its mentions. -/
theorem Inventory.ofRaw_eq_ok_iff {inventory : Inventory} :
    Inventory.ofRaw raw = .ok inventory ↔ raw.mapM GoldMention.ofRaw = .ok inventory.mentions := by
  obtain ⟨mentions⟩ := inventory
  rw [Inventory.ofRaw, map_eq_ok_iff]
  simp

theorem Inventory.ofRaw_eq_error_iff {e : InputError} :
    Inventory.ofRaw raw = .error e ↔ raw.mapM GoldMention.ofRaw = .error e := by
  rw [Inventory.ofRaw, map_eq_error_iff]

/-- Records cannot be read exactly when one of them is of unknown kind, and the first such one is
the error. -/
theorem mapM_ofRaw_eq_error_iff {e : InputError} :
    raw.mapM GoldMention.ofRaw = .error e ↔
      ∃ before bad after, raw = before ++ bad :: after ∧ (∀ r ∈ before, r.KnownKind) ∧
        ¬ bad.KnownKind ∧ e = .unknownMentionKind bad.id bad.kind := by
  rw [mapM_eq_error_iff]
  simp only [GoldMention.exists_ofRaw_iff, GoldMention.ofRaw_eq_error_iff]

end Records

namespace GoldDocument

variable {raw : GoldDocument RawMention}

/-- A document cannot be read exactly when its records behind each other cannot. -/
theorem ofRaw_eq_error_iff {e : InputError} :
    ofRaw raw = .error e ↔ raw.arguments.mapM GoldMention.ofRaw = .error e := by
  rw [← mapM_arguments, map_eq_error_iff, ofRaw]

/-- A document can be read exactly when the kinds of all its records are known. -/
theorem exists_ofRaw_iff : (∃ d, ofRaw raw = .ok d) ↔ ∀ r ∈ raw.arguments, r.KnownKind := by
  simp only [← GoldMention.exists_ofRaw_iff]
  rw [← exists_mapM_iff, ← mapM_arguments, exists_map_eq_ok_iff]
  rfl

/-- **Two routes to one inventory.**  Reading a document of records keeps everything around the
arguments and reads each argument at its place.  Its inventory is the one that the records behind
each other make, and where they make none the error is the same: that of the first record of unknown
kind, in the order of events, event mentions and arguments. -/
theorem ofRaw_agrees_with_inventory (raw : GoldDocument RawMention) :
    (∀ d, ofRaw raw = .ok d ↔ raw.map GoldMention.ofRaw = d.map .ok) ∧
    (∀ d, ofRaw raw = .ok d →
      d.frame = raw.frame ∧ Inventory.ofRaw raw.arguments = .ok d.inventory ∧
        d.inventory.size = raw.arguments.length) ∧
    (∀ e, ofRaw raw = .error e ↔ Inventory.ofRaw raw.arguments = .error e) ∧
    (∀ e, ofRaw raw = .error e ↔
      ∃ before bad after, raw.arguments = before ++ bad :: after ∧ (∀ r ∈ before, r.KnownKind) ∧
        ¬ bad.KnownKind ∧ e = .unknownMentionKind bad.id bad.kind) ∧
    ((∃ d, ofRaw raw = .ok d) ↔ ∀ r ∈ raw.arguments, r.KnownKind) := by
  refine ⟨mapM_eq_ok_iff raw, ?_, ?_, ?_, exists_ofRaw_iff⟩
  · intro d hd
    have hlist : raw.arguments.mapM GoldMention.ofRaw = .ok d.arguments := by
      rw [← mapM_arguments, show raw.mapM GoldMention.ofRaw = .ok d from hd]
      rfl
    have hlength := congrArg List.length (MentionAlign.mapM_eq_ok_iff.mp hlist)
    rw [List.length_map, List.length_map] at hlength
    exact ⟨frame_eq_of_mapM hd, Inventory.ofRaw_eq_ok_iff.mpr hlist, hlength.symm⟩
  · intro e
    rw [ofRaw_eq_error_iff, Inventory.ofRaw_eq_error_iff]
  · intro e
    rw [ofRaw_eq_error_iff, mapM_ofRaw_eq_error_iff]

/-- Of two records of unknown kind in two events the one in the first event is the error by either
route, and once their kinds are known both routes give the three mentions in order. -/
theorem ofRaw_agrees_with_inventory_two_events :
    let record := fun id kind : String =>
      ({ id, kind, extent := { start := 0, stop := 4 }, role := "Agent" } : RawMention)
    let document := fun kind : String =>
      ({ docId := "d"
         events := [
          { id := "e1", mentions := [
            { id := "m1", eventType := "E"
              arguments := [record "a" "entity", record "b" kind] }] },
          { id := "e2", mentions := [
            { id := "m2", eventType := "E", arguments := [record "c" kind] }] }] } :
        GoldDocument RawMention)
    (ofRaw (document "time") = .error (.unknownMentionKind "b" "time") ∧
      Inventory.ofRaw (document "time").arguments = .error (.unknownMentionKind "b" "time")) ∧
    ∃ d, ofRaw (document "filler") = .ok d ∧
      Inventory.ofRaw (document "filler").arguments = .ok d.inventory ∧ d.inventory.size = 3 := by
  intro record document
  have hrefused : ofRaw (document "time") = .error (.unknownMentionKind "b" "time") := rfl
  have hrefused' := ((ofRaw_agrees_with_inventory (document "time")).2.2.1 _).mp hrefused
  obtain ⟨_, hread, _, _, hknown⟩ := ofRaw_agrees_with_inventory (document "filler")
  obtain ⟨d, hd⟩ := hknown.mpr (by
    simp [document, record, arguments, RawMention.KnownKind])
  obtain ⟨_, hinventory, hsize⟩ := hread d hd
  exact ⟨⟨hrefused, hrefused'⟩, d, hd, hinventory, hsize⟩

end GoldDocument

end MentionAlign
