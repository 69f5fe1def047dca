import MentionAlign.Data.Structured
import MentionAlign.Proofs.Data.Decoding
import MentionAlign.Proofs.Data.EntryOrder

/-!
# Typed values survive JSON

A datum that is put into JSON and taken out again (`Json.through`) is not the same datum: an
optional value has lost its mark, and entries stand in the order of their keys.  Decoders see no
difference.  `Json.Shows` says so for one datum and one value, and carries over from texts and
numbers to options, lists and records.  For a record it is enough that its names are different names
of fields (`Shows.record`), since then the order of the keys changes nothing that a field reader
looks up.
-/

namespace MentionAlign.Json

section Parts

theorem toData_eq_map (js : List Json) : toData js = js.map toDatum := by
  induction js with
  | nil => rfl
  | cons j js ih => rw [toData, ih, List.map_cons]

theorem toEntries_eq_map (entries : List (String × Json)) :
    toEntries entries = entries.map fun e => (e.1, e.2.toDatum) := by
  induction entries with
  | nil => rfl
  | cons e entries ih => rw [toEntries, ih, List.map_cons]

theorem ofData_eq_map (ds : List Datum) : ofData ds = ds.map ofDatum := by
  induction ds with
  | nil => rfl
  | cons d ds ih => rw [ofData, ih, List.map_cons]

theorem ofEntries_eq_map (entries : List (String × Datum)) :
    ofEntries entries = entries.map fun e => (e.1, ofDatum e.2) := by
  induction entries with
  | nil => rfl
  | cons e entries ih => rw [ofEntries, ih, List.map_cons]

/-- The datum of an array lists those of its items. -/
theorem toDatum_array (items : List Json) : (array items).toDatum = .list (items.map toDatum) := by
  rw [toDatum, toData_eq_map]

/-- The datum of an object has its entries in the order of the keys. -/
theorem toDatum_object (entries : List (String × Json)) : (object entries).toDatum =
    .record none (Entries.ofList (entries.map fun e => (e.1, e.2.toDatum))) := by
  rw [toDatum, toEntries_eq_map]

end Parts

section Decoders

variable {α : Type} {read : Decoder α} {j : Json}

/-- An optional value that is not `null` is the value itself. -/
theorem toOption_toDatum (h : j ≠ null) :
    Datum.toOption read .json j.toDatum = (read .json j.toDatum).map some := by
  cases j with
  | null => exact absurd rfl h
  | _ => rfl

/-- A list is read item by item. -/
theorem toList_list (ds : List Datum) :
    Datum.toList read .json (.list ds) = ds.mapM (read .json) := by
  cases ds <;> rfl

/-- A record is read from its entries. -/
theorem toRecord_record {type : String} {reader : FieldReader Datum α}
    (entries : List (String × Datum)) : Datum.toRecord type reader .json (.record none entries) =
      reader.run .json (Datum.passOver .json) { entries } := rfl

end Decoders

/-- What a datum shows once it has been put into JSON. -/
def through (d : Datum) : Datum := (ofDatum d).toDatum

/-- A list is put through item by item. -/
theorem through_list (ds : List Datum) : through (.list ds) = .list (ds.map through) := by
  rw [through, ofDatum, toDatum_array, ofData_eq_map, List.map_map]
  rfl

/-- The entries that a record shows once it has been put into JSON, in the order of the keys. -/
def throughEntries (entries : List (String × Datum)) : List (String × Datum) :=
  Entries.ofList (entries.map fun e => (e.1, through e.2))

/-- A record loses its name and comes back in the order of its keys. -/
theorem through_record (type : Option String) (entries : List (String × Datum)) :
    through (.record type entries) = .record none (throughEntries entries) := by
  rw [through, ofDatum, toDatum_object, ofEntries_eq_map, List.map_map]
  rfl

/-- A record that was put through has no key twice. -/
theorem nodup_keys_throughEntries (entries : List (String × Datum)) :
    ((throughEntries entries).map Prod.fst).Nodup :=
  (Entries.sorted_ofList _).nodup_keys

/-- No key is added. -/
theorem key_mem_of_mem_throughEntries {entries : List (String × Datum)} {e : String × Datum}
    (h : e ∈ throughEntries entries) : e.1 ∈ entries.map Prod.fst := by
  obtain ⟨e', he', rfl⟩ := List.mem_map.mp (Entries.mem_of_mem_ofList h)
  exact List.mem_map.mpr ⟨e', he', rfl⟩

/-- Different names keep what each of them has. -/
theorem lookup_throughEntries {entries : List (String × Datum)}
    (hnodup : (entries.map Prod.fst).Nodup) (name : String) :
    (throughEntries entries).lookup name = (entries.lookup name).map through := by
  have hkeys : ((entries.map fun e => (e.1, through e.2)).map Prod.fst).Nodup := by
    rw [List.map_map]
    exact hnodup
  rw [throughEntries, Entries.lookup_ofList_of_nodup hkeys, Entries.lookup_map_snd]

variable {α β : Type} {read : Decoder α} {write : α → Datum} {d : Datum} {a : α}

/-- The datum, put into JSON, is decoded as the value. -/
def Shows (read : Decoder α) (d : Datum) (a : α) : Prop := read .json (through d) = .ok a

/-- The reader finds the value wherever every name has what the entries, put into JSON, have for
it. -/
def Finds (r : FieldReader Datum α) (entries : List (String × Datum)) (a : α) : Prop :=
  ∀ shown : List (String × Datum),
    (∀ name, shown.lookup name = (entries.lookup name).map through) →
      r.read .json { entries := shown } = { faults := [], value := .ok a }

namespace Finds

variable {entries : List (String × Datum)}

/-- Fields that are found are found together. -/
theorem seq {f : FieldReader Datum (α → β)} {g : α → β} {r : FieldReader Datum α}
    (hf : Finds f entries g) (hr : Finds r entries a) : Finds (f <*> r) entries (g a) :=
  fun shown h => FieldReader.read_seq (hf shown h) (hr shown h)

/-- What is found can be made part of something else. -/
theorem map (g : α → β) {r : FieldReader Datum α} (hr : Finds r entries a) :
    Finds (g <$> r) entries (g a) :=
  fun shown h => FieldReader.read_map g (hr shown h)

/-- A field that is not there is found by what its absence means. -/
theorem of_missing {name : String} {missing : Bool → Except Fault α}
    (hlookup : entries.lookup name = none) (hmissing : missing false = .ok a) :
    Finds (.field name read missing) entries a := by
  intro shown h
  have hshown : shown.lookup name = none := by rw [h, hlookup, Option.map_none]
  simp only [FieldReader.field, hshown, hmissing]

end Finds

namespace Shows

theorem text (s : String) : Shows Datum.toText (.text s) s := rfl

theorem natural {n : Nat} (hn : n < Text.offsetBound) : Shows Datum.toNatural (.natural n) n :=
  if_pos hn

theorem boolean (b : Bool) : Shows Datum.toBoolean (.boolean b) b := rfl

/-- The name of a variant shows it. -/
theorem variant {variants : List (String × α)} {name : String} (h : variants.lookup name = some a) :
    Shows (Datum.toVariant variants) (.text name) a := by
  have hfound : Datum.findVariant variants name = .ok a := by rw [Datum.findVariant, h]
  exact hfound

/-- An optional value is shown if the value in it is, by a decoder that does not take `null`. -/
theorem ofOption {value : Option α} (hnull : read .json .absent = .error .mismatch)
    (h : ∀ a ∈ value, Shows read (write a) a) :
    Shows (Datum.toOption read) (.ofOption write value) value := by
  cases value with
  | none => rfl
  | some a =>
      have ha : read .json (ofDatum (write a)).toDatum = .ok a := h a rfl
      have hvalue : ofDatum (write a) ≠ null := by
        intro heq
        rw [heq] at ha
        cases hnull.symm.trans ha
      calc Datum.toOption read .json (through (.ofOption write (some a)))
          = Datum.toOption read .json (ofDatum (write a)).toDatum := rfl
        _ = .ok (some a) := by rw [toOption_toDatum hvalue, ha]; rfl

/-- A list is shown if its items are. -/
theorem ofList {as : List α} (h : ∀ a ∈ as, Shows read (write a) a) :
    Shows (Datum.toList read) (.ofList write as) as := by
  rw [Shows, Datum.ofList, through_list, toList_list, mapM_eq_ok_iff, List.map_map, List.map_map]
  exact List.map_congr_left h

/-- A field is found by its name if its value is shown. -/
theorem finds {name : String} {missing : Bool → Except Fault α} {entries : List (String × Datum)}
    (h : Shows read d a) (hlookup : entries.lookup name = some d) :
    Finds (.field name read missing) entries a := by
  intro shown hshown
  refine FieldReader.read_field (v := through d) ?_ h
  rw [hshown, hlookup, Option.map_some]

/-- **A record is shown** if its fields are found and its names are names of fields, in their
order. -/
theorem record {type : String} {reader : FieldReader Datum α} {entries : List (String × Datum)}
    (names : List String) (hreader : reader.names = names) (hnodup : names.Nodup)
    (hsublist : (entries.map Prod.fst).Sublist names) (hfinds : Finds reader entries a) :
    Shows (Datum.toRecord type reader) (.record none entries) a := by
  have hread := hfinds _ (lookup_throughEntries (hnodup.sublist hsublist))
  rw [Shows, through_record, toRecord_record]
  exact FieldReader.run_eq_ok_of_names hread
    (fun e he => hreader ▸ hsublist.subset (key_mem_of_mem_throughEntries he))
    (nodup_keys_throughEntries entries)

/-- A typed value whose datum shows it is given back by JSON. -/
theorem decode_encode [Structured α] (h : Shows Structured.ofDatum (Structured.toDatum a) a) :
    decode (encode a) = .ok a := h

end Shows

end MentionAlign.Json
