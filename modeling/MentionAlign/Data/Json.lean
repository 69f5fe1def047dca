import MentionAlign.Data.Datum
import MentionAlign.Entries

/-!
# JSON values

An object is a set of named values: as structured data its entries are read in the order of their
keys, and of entries with one key the last counts.
-/

namespace MentionAlign

/-- A JSON value.  Natural numbers are told from all other numbers. -/
inductive Json
  | null
  | boolean (value : Bool)
  | natural (value : Nat)
  /-- A number that is negative or written with a fraction or an exponent. -/
  | number
  | string (value : String)
  | array (items : List Json)
  | object (entries : List (String × Json))
deriving Repr

namespace Json

mutual

/-- The structured data that a JSON value shows. -/
def toDatum : Json → Datum
  | null => .absent
  | boolean b => .boolean b
  | natural n => .natural n
  | number => .scalar
  | string s => .text s
  | array items => .list (toData items)
  | object entries => .record none (Entries.ofList (toEntries entries))

/-- The data that the items of an array show. -/
def toData : List Json → List Datum
  | [] => []
  | j :: js => j.toDatum :: toData js

/-- The entries that an object shows. -/
def toEntries : List (String × Json) → List (String × Datum)
  | [] => []
  | (name, j) :: rest => (name, j.toDatum) :: toEntries rest

end

mutual

/-- The JSON value that shows structured data: an optional value stands as it is, or is `null`. -/
def ofDatum : Datum → Json
  | .absent => null
  | .present d => ofDatum d
  | .boolean b => boolean b
  | .natural n => natural n
  | .text s => string s
  | .list items => array (ofData items)
  | .record _ entries => object (ofEntries entries)
  | .moment shown => string shown
  | .scalar => number
  | .other parts => array (ofData parts)
  | .marked _ d | .either d _ | .unclosed d => ofDatum d
  | .broken => null

/-- The array items that show data. -/
def ofData : List Datum → List Json
  | [] => []
  | d :: ds => ofDatum d :: ofData ds

/-- The object entries that show data. -/
def ofEntries : List (String × Datum) → List (String × Json)
  | [] => []
  | (name, d) :: rest => (name, ofDatum d) :: ofEntries rest

end

end Json

end MentionAlign
