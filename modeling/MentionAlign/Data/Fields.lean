import MentionAlign.Data.Datum

/-!
# Reading records

A record reader is put together from readers of single fields, in the order in which the fields are
declared.  Which fault wins does not depend on that order: the entries that are there are judged in
the order in which the source has them, and a field that is not there counts only after all of
them, the first declared one first.
-/

namespace MentionAlign

/-- The entries of a record in the order of the source. -/
structure Fields (ν : Type) where
  entries : List (String × ν)
  /-- The names come from the position of the values in a list. -/
  positional : Bool := false
  /-- The list has more values than the record has fields, which is a fault. -/
  surplus : Bool := false

/-- What a record reader finds: the faults of fields that are there, and the value. -/
structure Reading (α : Type) where
  faults : List (String × Fault)
  value : Except Fault α

/-- A reader of records with entries of type `ν`. -/
structure FieldReader (ν α : Type) where
  names : List String
  read : Format → Fields ν → Reading α

namespace FieldReader

variable {ν α β : Type}

instance : Applicative (FieldReader ν) where
  pure a := { names := [], read := fun _ _ => { faults := [], value := .ok a } }
  seq f a := {
    names := f.names ++ (a ()).names
    read := fun format fields =>
      let g := f.read format fields
      let b := (a ()).read format fields
      { faults := g.faults ++ b.faults, value := g.value >>= fun h => b.value.map h } }

/-- A field with what its absence means; `positional` says whether the record is a list. -/
def field (name : String) (read : Format → ν → Except Fault α)
    (missing : (positional : Bool) → Except Fault α) : FieldReader ν α where
  names := [name]
  read format fields :=
    match fields.entries.lookup name with
    | none => { faults := [], value := missing fields.positional }
    | some v =>
      match read format v with
      | .ok a => { faults := [], value := .ok a }
      | .error fault => { faults := [(name, fault)], value := .error fault }

/-- A field that has to be there. -/
def required (name : String) (read : Format → ν → Except Fault α) : FieldReader ν α :=
  field name read fun positional =>
    .error (if positional then .mismatch else { cause := .missingField name })

/-- A field with a value to fall back on. -/
def defaulted (name : String) (read : Format → ν → Except Fault α) (fallback : α) :
    FieldReader ν α :=
  field name read fun _ => .ok fallback

/-- A field that may be left out of a record, but not out of a list. -/
def optional (name : String) (read : Format → ν → Except Fault (Option α)) :
    FieldReader ν (Option α) :=
  field name read fun positional => if positional then .error .mismatch else .ok none

/-- The first fault among the entries, in the order of the source; `seen` holds the known names that
came before. -/
def firstFault (names : List String) (faults : List (String × Fault))
    (stray : String → ν → Option Fault) (seen : List String) : List (String × ν) → Option Fault
  | [] => none
  | (name, v) :: rest =>
    if names.contains name then
      if seen.contains name then some { cause := .duplicateField name }
      else (faults.lookup name).or (firstFault names faults stray (name :: seen) rest)
    else (stray name v).or (firstFault names faults stray seen rest)

/-- Reads a record; `stray` judges the entries that no field asks for. -/
def run (r : FieldReader ν α) (format : Format) (stray : String → ν → Option Fault)
    (fields : Fields ν) : Except Fault α :=
  let reading := r.read format fields
  match firstFault r.names reading.faults stray [] fields.entries with
  | some fault => .error fault
  | none => reading.value >>= fun a => if fields.surplus then .error .mismatch else .ok a

end FieldReader

namespace Datum

/-- The fields of a list that stands for a record, where the format allows it. -/
def fieldsOfList? {ν : Type} (format : Format) (names : List String) (items : List ν) :
    Option (Fields ν) :=
  let entries := names.zip items
  match format with
  | .json => some { entries, positional := true, surplus := names.length < items.length }
  | .toml => some { entries, positional := true }
  | .ron .. => none

/-- Whether a record may stand for a value of the given type. -/
def typeFits (type : String) (given : Option String) : Bool := given.all (· == type)

/-- How a record judges an entry that no field asks for. -/
abbrev Stray (ν : Type) := Format → String → ν → Option Fault

/-- An entry that no field asks for is passed over, if its text can be read. -/
def passOver : Stray Datum := fun format _ d =>
  if d.isBroken || !format.admits d.nesting then some .mismatch else none

/-- An entry that no field asks for is a fault. -/
def refuse (names : List String) : Stray Datum := fun _ name d =>
  some { cause := .unknownField name names, line := d.line? }

variable {α : Type}

/-- Reads a record of the given type. -/
def toRecordWith (type : String) (reader : FieldReader Datum α) (stray : Stray Datum) : Decoder α :=
  fun format => under fun
    | list items =>
      match fieldsOfList? format reader.names items with
      | some fields => reader.run format (stray format) fields
      | none => .error .mismatch
    | d =>
      match d.entries? with
      | some (given, entries) =>
        if typeFits type given then
          deeper 2 (fun format => reader.run format (stray format) { entries }) format
        else .error .mismatch
      | none => .error .mismatch

/-- Reads a record of the given type, passing over entries that no field asks for. -/
def toRecord (type : String) (reader : FieldReader Datum α) : Decoder α :=
  toRecordWith type reader passOver

/-- Reads a record of the given type that has no entries beyond its fields. -/
def toStrictRecord (type : String) (reader : FieldReader Datum α) : Decoder α :=
  toRecordWith type reader (refuse reader.names)

end Datum

end MentionAlign
