import MentionAlign.Data.Fields
import MentionAlign.Proofs.Data.Traversal

/-!
# Values that are read from structured data

A decoder depends on the format only for how deep values may nest and for shapes that typed values
are not written in.  So "this datum is read as this value" is stated once for all formats that let
the datum nest as deep as it does (`Datum.DecodesTo`).  It carries over from the parts of a datum to
options, lists and records, and the typed readers are put together from these.

A record is read field by field: a field reader finds its value among the entries
(`FieldReader.Finds`), and no entry is a fault if their names are different names of fields.
-/

namespace MentionAlign

namespace Format

variable {format : Format} {m n : Nat}

/-- Where values may nest so deep, they may nest less deep. -/
theorem admits_of_le (hmn : m ≤ n) (h : format.admits n = true) : format.admits m = true := by
  cases format <;> simp_all [admits]
  omega

/-- Values that nest so deep inside some levels nest that much deeper from outside. -/
theorem admits_inside (h : format.admits (n + m) = true) : (format.inside m).admits n = true := by
  cases format <;> simp_all [admits, inside]
  omega

end Format

namespace Datum

variable {α : Type} {read : Decoder α} {write : α → Datum} {n : Nat}

/-- Brackets around data nest up to a depth exactly when each datum does with two levels more. -/
theorem nestingAmong_le_iff {ds : List Datum} :
    nestingAmong ds ≤ n ↔ 1 ≤ n ∧ ∀ d ∈ ds, d.nesting + 2 ≤ n := by
  induction ds with
  | nil => simp [nestingAmong]
  | cons d ds ih =>
      rw [nestingAmong, Nat.max_le, ih, List.forall_mem_cons]
      exact and_left_comm

/-- Brackets around entries nest up to a depth exactly when each value does with two levels more. -/
theorem nestingWithin_le_iff {entries : List (String × Datum)} :
    nestingWithin entries ≤ n ↔ 1 ≤ n ∧ ∀ e ∈ entries, e.2.nesting + 2 ≤ n := by
  induction entries with
  | nil => simp [nestingWithin]
  | cons e entries ih =>
      rw [nestingWithin, Nat.max_le, ih, List.forall_mem_cons]
      exact and_left_comm

/-- An optional value nests one deeper than the value in it. -/
theorem nesting_ofOption_le {value : Option α} (h : ∀ a ∈ value, (write a).nesting ≤ n) :
    (ofOption write value).nesting ≤ n + 1 := by
  cases value with
  | none => exact Nat.zero_le _
  | some a => exact Nat.succ_le_succ (h a rfl)

/-- A list nests two deeper than the values in it. -/
theorem nesting_ofList_le {as : List α} (h : ∀ a ∈ as, (write a).nesting ≤ n) :
    (ofList write as).nesting ≤ n + 2 := by
  refine nestingAmong_le_iff.mpr ⟨by omega, ?_⟩
  rw [List.forall_mem_map]
  exact fun a ha => Nat.add_le_add_right (h a ha) 2

/-- The datum is read as the value in every format that lets it nest as deep as it does. -/
def DecodesTo (read : Decoder α) (d : Datum) (a : α) : Prop :=
  ∀ format : Format, format.admits d.nesting = true → read format d = .ok a

theorem decodesTo_text (s : String) : DecodesTo toText (.text s) s := fun _ _ => rfl

theorem decodesTo_natural (hn : n < Text.offsetBound) : DecodesTo toNatural (.natural n) n :=
  fun _ _ => if_pos hn

theorem decodesTo_ofOption {value : Option α} (h : ∀ a ∈ value, DecodesTo read (write a) a) :
    DecodesTo (toOption read) (ofOption write value) value := by
  intro format hformat
  cases value with
  | none => rfl
  | some a =>
      have hroom : format.admits ((write a).nesting + 1) = true := hformat
      have hinside : read (format.inside 1) (write a) = .ok a :=
        h a rfl _ (Format.admits_inside hroom)
      have hone : format.admits 1 = true := Format.admits_of_le (by omega) hroom
      calc toOption read format (ofOption write (some a))
          = deeper 1 (fun format => (read format (write a)).map some) format := rfl
        _ = .ok (some a) := by rw [deeper, if_pos hone, hinside]; rfl

theorem decodesTo_ofList {as : List α} (h : ∀ a ∈ as, DecodesTo read (write a) a) :
    DecodesTo (toList read) (ofList write as) as := by
  intro format hformat
  have hroom : format.admits (nestingAmong (as.map write)) = true := hformat
  obtain ⟨_, hitems⟩ := nestingAmong_le_iff.mp (Nat.le_refl (nestingAmong (as.map write)))
  rw [List.forall_mem_map] at hitems
  cases as with
  | nil => exact if_pos hroom
  | cons a as =>
      have htwo : format.admits 2 = true :=
        Format.admits_of_le (Nat.le_trans (by omega) (hitems a List.mem_cons_self)) hroom
      have hread : ((a :: as).map write).mapM (read (format.inside 2)) = .ok (a :: as) := by
        rw [mapM_eq_ok_iff, List.map_map]
        refine List.map_congr_left fun b hb => h b hb _ (Format.admits_inside ?_)
        exact Format.admits_of_le (hitems b hb) hroom
      calc toList read format (ofList write (a :: as))
          = deeper 2 (fun format => ((a :: as).map write).mapM (read format)) format := rfl
        _ = .ok (a :: as) := by rw [deeper, if_pos htwo, hread]

end Datum

namespace FieldReader

variable {ν α β : Type}

section Read

variable {format : Format} {fields : Fields ν} {r : FieldReader ν α} {a : α}

/-- A field that is there is read from its value. -/
theorem read_field {name : String} {read : Format → ν → Except Fault α}
    {missing : Bool → Except Fault α} {v : ν} (hlookup : fields.entries.lookup name = some v)
    (hv : read format v = .ok a) :
    (field name read missing).read format fields = { faults := [], value := .ok a } := by
  simp only [field, hlookup, hv]

theorem read_seq {f : FieldReader ν (α → β)} {g : α → β}
    (hf : f.read format fields = { faults := [], value := .ok g })
    (hr : r.read format fields = { faults := [], value := .ok a }) :
    (f <*> r).read format fields = { faults := [], value := .ok (g a) } := by
  calc (f <*> r).read format fields
      = { faults := (f.read format fields).faults ++ (r.read format fields).faults
          value := (f.read format fields).value >>= fun h =>
            (r.read format fields).value.map h } := rfl
    _ = { faults := [], value := .ok (g a) } := by
        rw [hf, hr]
        rfl

theorem read_map (g : α → β) (hr : r.read format fields = { faults := [], value := .ok a }) :
    (g <$> r).read format fields = { faults := [], value := .ok (g a) } :=
  read_seq (f := pure g) rfl hr

/-- Entries with different names are no fault if every name is that of a field. -/
theorem firstFault_eq_none {names seen : List String} {entries : List (String × ν)}
    {stray : String → ν → Option Fault} (hnames : ∀ e ∈ entries, e.1 ∈ names)
    (hnodup : (entries.map Prod.fst).Nodup) (hseen : ∀ e ∈ entries, e.1 ∉ seen) :
    firstFault names [] stray seen entries = none := by
  induction entries generalizing seen with
  | nil => rfl
  | cons e entries ih =>
      obtain ⟨name, v⟩ := e
      obtain ⟨hname, hnames⟩ := List.forall_mem_cons.mp hnames
      obtain ⟨hfresh, hseen⟩ := List.forall_mem_cons.mp hseen
      obtain ⟨hothers, hnodup⟩ := List.nodup_cons.mp hnodup
      have hrest : firstFault names [] stray (name :: seen) entries = none := by
        refine ih hnames hnodup fun e he => ?_
        have hmem : e.1 ∈ entries.map Prod.fst := List.mem_map_of_mem he
        have hne : e.1 ≠ name := fun h => hothers (h ▸ hmem)
        simp [hne, hseen e he]
      simp [firstFault, hname, hfresh, hrest]

/-- A record is read if its fields are, and if its names are different names of fields. -/
theorem run_eq_ok_of_names {entries : List (String × ν)} {stray : String → ν → Option Fault}
    (hread : r.read format { entries } = { faults := [], value := .ok a })
    (hnames : ∀ e ∈ entries, e.1 ∈ r.names) (hnodup : (entries.map Prod.fst).Nodup) :
    r.run format stray { entries } = .ok a := by
  have hfaults : firstFault r.names [] stray [] entries = none :=
    firstFault_eq_none hnames hnodup (by simp)
  rw [run, hread]
  simp only [hfaults]
  rfl

/-- A record is read if its fields are, and if its names are names of fields in their order. -/
theorem run_eq_ok {entries : List (String × ν)} {stray : String → ν → Option Fault}
    (hread : r.read format { entries } = { faults := [], value := .ok a })
    (hnames : (entries.map Prod.fst).Sublist r.names) (hnodup : r.names.Nodup) :
    r.run format stray { entries } = .ok a :=
  run_eq_ok_of_names hread (fun _ he => hnames.subset (List.mem_map_of_mem he))
    (hnodup.sublist hnames)

end Read

variable {r : FieldReader Datum α} {entries : List (String × Datum)} {a : α}

/-- The reader finds the value among the entries in every format that lets each of them nest as deep
as it does. -/
def Finds (r : FieldReader Datum α) (entries : List (String × Datum)) (a : α) : Prop :=
  ∀ format : Format, (∀ e ∈ entries, format.admits e.2.nesting = true) →
    r.read format { entries } = { faults := [], value := .ok a }

/-- A field is found by its name if its value is read. -/
theorem finds_field {name : String} {read : Decoder α} {missing : Bool → Except Fault α} {d : Datum}
    (hlookup : entries.lookup name = some d) (hd : Datum.DecodesTo read d a) :
    (field name read missing).Finds entries a := by
  intro format hformat
  obtain ⟨before, behind, rfl, _⟩ := List.lookup_eq_some_iff.mp hlookup
  exact read_field hlookup (hd format (hformat (name, d) (by simp)))

/-- A field that is not there is found by what its absence means. -/
theorem finds_field_of_missing {name : String} {read : Decoder α}
    {missing : Bool → Except Fault α} (hlookup : entries.lookup name = none)
    (hmissing : missing false = .ok a) : (field name read missing).Finds entries a := by
  intro format _
  simp only [field, hlookup, hmissing]

/-- Fields that are found are found together. -/
theorem Finds.seq {f : FieldReader Datum (α → β)} {g : α → β} (hf : f.Finds entries g)
    (hr : r.Finds entries a) : (f <*> r).Finds entries (g a) :=
  fun format hformat => read_seq (hf format hformat) (hr format hformat)

/-- What is found can be made part of something else. -/
theorem Finds.map (g : α → β) (hr : r.Finds entries a) : (g <$> r).Finds entries (g a) :=
  fun format hformat => read_map g (hr format hformat)

end FieldReader

namespace Datum

/-- Room for a record is room for its brackets and, inside these, for each value. -/
theorem admits_of_nestingWithin {format : Format} {entries : List (String × Datum)}
    (hentries : entries ≠ []) (hformat : format.admits (nestingWithin entries) = true) :
    format.admits 2 = true ∧ ∀ e ∈ entries, (format.inside 2).admits e.2.nesting = true := by
  obtain ⟨_, hparts⟩ := nestingWithin_le_iff.mp (Nat.le_refl (nestingWithin entries))
  -- brackets are one level and their contents another, so one entry makes room for two
  obtain ⟨e, he⟩ := List.exists_mem_of_ne_nil entries hentries
  refine ⟨Format.admits_of_le (Nat.le_trans (by omega) (hparts e he)) hformat, fun e he => ?_⟩
  exact Format.admits_inside (Format.admits_of_le (hparts e he) hformat)

/-- A record is read if its fields are found and its names are names of fields, in their order. -/
theorem decodesTo_record {α : Type} {type : String} {reader : FieldReader Datum α}
    {entries : List (String × Datum)} {a : α} (hentries : entries ≠ [])
    (hfinds : reader.Finds entries a) (hnames : (entries.map Prod.fst).Sublist reader.names)
    (hnodup : reader.names.Nodup) :
    DecodesTo (toRecord type reader) (.record none entries) a := by
  intro format hformat
  obtain ⟨htwo, hparts⟩ := admits_of_nestingWithin hentries hformat
  calc toRecord type reader format (.record none entries)
      = deeper 2 (fun format => reader.run format (passOver format) { entries }) format := rfl
    _ = reader.run (format.inside 2) (passOver (format.inside 2)) { entries } := if_pos htwo
    _ = .ok a := FieldReader.run_eq_ok (hfinds _ hparts) hnames hnodup

end Datum

end MentionAlign
