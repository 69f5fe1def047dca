import MentionAlign.Data.Fault
import MentionAlign.Text.Decimal

/-!
# Structured data

One type of values stands behind every notation that documents, fixtures and results are written
in.  A notation turns a text into a `Datum`; decoders turn a `Datum` into a typed value and know
nothing of texts.  Where a text stops making sense the datum ends in `broken`, so that a decoder
which goes through the datum in order meets the first fault of the text first.
-/

namespace MentionAlign

/-- A value of structured data. -/
inductive Datum
  /-- No value, where one is optional. -/
  | absent
  /-- An optional value that is there, in notations that say so. -/
  | present (value : Datum)
  | boolean (value : Bool)
  | natural (value : Nat)
  | text (value : String)
  | list (items : List Datum)
  /-- Named values, in the order of the source; some notations name the type. -/
  | record (type : Option String) (entries : List (String × Datum))
  /-- A date or a time of day. -/
  | moment (shown : String)
  /-- A single value of a kind that nothing here asks for. -/
  | scalar
  /-- A bracketed value of a shape that nothing here asks for, with its parts. -/
  | other (parts : List Datum)
  /-- A value that begins on the given line of its source. -/
  | marked (line : Nat) (value : Datum)
  /-- A text that shows one value where a type is asked for and another where it is passed over. -/
  | either (asked passed : Datum)
  /-- A value that the source text does not close. -/
  | unclosed (value : Datum)
  /-- The source text breaks off here. -/
  | broken
deriving Repr

/-- What a notation leaves open about the shape of values. -/
inductive Format
  /-- Options are `null` or the value itself, records may be lists of exactly their fields. -/
  | json
  /-- Options are left out or the value itself, records may be lists beginning with their fields. -/
  | toml
  /-- Options are wrapped unless the text waives it, records are always named, and values nest up to
  `room` levels deep. -/
  | ron (implicitSome : Bool) (room : Nat)
deriving DecidableEq, Repr

namespace Format

/-- Whether an optional value has to be wrapped. -/
def wrapsOptions : Format → Bool
  | .ron implicitSome _ => !implicitSome
  | .json | .toml => false

/-- Whether values may nest so many levels deep. -/
def admits (levels : Nat) : Format → Bool
  | .ron _ room => levels ≤ room
  | .json | .toml => true

/-- The format of the values that stand some levels deeper. -/
def inside (levels : Nat) : Format → Format
  | .ron implicitSome room => .ron implicitSome (room - levels)
  | .json => .json
  | .toml => .toml

end Format

/-- Reads a typed value from structured data. -/
abbrev Decoder (α : Type) := Format → Datum → Except Fault α

namespace Datum

mutual

/-- Whether the source text breaks off inside the datum. -/
def isBroken : Datum → Bool
  | present d => d.isBroken
  | list items => isBrokenAmong items
  | record _ entries => isBrokenWithin entries
  | other parts => isBrokenAmong parts
  | marked _ d => d.isBroken
  | either _ passed => passed.isBroken
  | unclosed _ | broken => true
  | absent | boolean _ | natural _ | text _ | moment _ | scalar => false

/-- Whether the source text breaks off inside one of the data. -/
def isBrokenAmong : List Datum → Bool
  | [] => false
  | d :: ds => d.isBroken || isBrokenAmong ds

/-- Whether the source text breaks off inside one of the entries. -/
def isBrokenWithin : List (String × Datum) → Bool
  | [] => false
  | (_, d) :: entries => d.isBroken || isBrokenWithin entries

end

mutual

/-- How many levels deep a value nests: brackets are one level and what stands between them is
another, an optional value is one level. -/
def nesting : Datum → Nat
  | present d => d.nesting + 1
  | list items => nestingAmong items
  | record _ entries => nestingWithin entries
  | other parts => nestingAmong parts
  | marked _ d => d.nesting
  | either _ passed => passed.nesting
  | unclosed d => d.nesting
  | absent | boolean _ | natural _ | text _ | moment _ | scalar | broken => 0

/-- How many levels deep brackets around the data nest. -/
def nestingAmong : List Datum → Nat
  | [] => 1
  | d :: ds => max (d.nesting + 2) (nestingAmong ds)

/-- How many levels deep brackets around the entries nest. -/
def nestingWithin : List (String × Datum) → Nat
  | [] => 1
  | (_, d) :: entries => max (d.nesting + 2) (nestingWithin entries)

end

/-- The line that the datum is marked with. -/
def line? : Datum → Option Nat
  | marked line _ => some line
  | _ => none

/-- The datum without its mark. -/
def unmarked : Datum → Datum
  | marked _ d => d
  | d => d

/-- The name of the only entry of a date or time that is read as a record. -/
def momentField : String := "$__toml_private_datetime"

/-- The entries of a value that can be read as a record, with the type that it names. -/
def entries? : Datum → Option (Option String × List (String × Datum))
  | record type entries => some (type, entries)
  | moment shown => some (none, [(momentField, text shown)])
  | _ => none

variable {α : Type}

/-- Reads what a mark stands around; a fault without a line gets the line of the mark.  A value that
is not closed is a fault once it has been read. -/
def under (read : Datum → Except Fault α) : Datum → Except Fault α
  | marked line d => atLine line (d.under read)
  | either asked _ => asked.under read
  | unclosed d => d.under read >>= fun _ => .error .mismatch
  | d => read d

/-- Reads a text. -/
def toText : Decoder String := fun _ => under fun
  | text s => .ok s
  | _ => .error .mismatch

/-- Reads a truth value. -/
def toBoolean : Decoder Bool := fun _ => under fun
  | boolean b => .ok b
  | _ => .error .mismatch

/-- Reads a natural number that fits 64 bits. -/
def toNatural : Decoder Nat := fun _ => under fun
  | natural n => if n < Text.offsetBound then .ok n else .error .mismatch
  | _ => .error .mismatch

/-- Reads what stands some levels deeper, if values may nest so deep. -/
def deeper (levels : Nat) (read : Format → Except Fault α) (format : Format) : Except Fault α :=
  if format.admits levels then read (format.inside levels) else .error .mismatch

/-- Reads each item of a list; the first failure counts. -/
def toList (read : Decoder α) : Decoder (List α) := fun format => under fun
  | list [] => deeper 1 (fun _ => .ok []) format
  | list items => deeper 2 (fun format => items.mapM (read format)) format
  | _ => .error .mismatch

/-- Reads an optional value. -/
def toOption (read : Decoder α) : Decoder (Option α) := fun format =>
  let readInside := fun d => deeper 1 (fun format => (read format d).map some) format
  under fun
    | absent => .ok none
    | present d => readInside d
    | d => if format.wrapsOptions then .error .mismatch else readInside d

/-- Whether the datum may stand beside the name of a variant that carries nothing. -/
def carriesNothing (format : Format) : Datum → Bool
  | absent => format = .json
  | list [] | record _ [] => format = .toml
  | _ => false

/-- Reads what stands beside the name of a variant that carries nothing. -/
def toNothing : Decoder Unit := fun format => under fun d =>
  if d.carriesNothing format then .ok () else .error .mismatch

/-- Finds a named value among the variants. -/
def findVariant (variants : List (String × α)) (name : String) : Except Fault α :=
  match variants.lookup name with
  | some a => .ok a
  | none => .error { cause := .unknownVariant name (variants.map Prod.fst) }

/-- Reads one of several named values, written as the name or as a record of the name alone.  A name
that is no variant is a fault on the line of the name. -/
def toVariant (variants : List (String × α)) : Decoder α := fun format => under fun
  | text name => findVariant variants name
  | record none [(name, payload)] => do
    let a ← (findVariant variants name).mapError fun fault => { fault with line := payload.line? }
    let _ ← toNothing format payload.unmarked
    return a
  | _ => .error .mismatch

/-- The datum of an optional value. -/
def ofOption (write : α → Datum) : Option α → Datum
  | none => absent
  | some a => present (write a)

/-- The datum of a list of values. -/
def ofList (write : α → Datum) (as : List α) : Datum := list (as.map write)

end Datum

end MentionAlign
