import MentionAlign.Data.Datum

/-!
# Tables under construction

A configuration text builds one tree of tables.  How a table came to be decides what may still be
added to it: a table with a header is complete under that header; a table that only stands on the
way to another one may still get its own header; a table that dotted keys name grows by dotted keys.
-/

namespace MentionAlign.Toml

/-- One name of a key, with its line. -/
structure Key where
  name : String
  line : Nat
deriving DecidableEq, Repr

/-- How a table came to be. -/
inductive Standing
  /-- It has a header, or braces, on the given line. -/
  | explicit (line : Nat)
  /-- It stands on the way of a header. -/
  | implied
  /-- It stands on the way of a dotted key. -/
  | dotted
deriving DecidableEq, Repr

/-- What a name of a table stands for. -/
inductive Item
  | value (line : Nat) (datum : Datum)
  | table (standing : Standing) (entries : List (Key × Item))
  /-- The rows of a list of tables, each with the line of its header. -/
  | rows (tables : List (Nat × List (Key × Item)))

/-- A table under construction. -/
structure Table where
  standing : Standing
  /-- The entries in the order of the text. -/
  entries : List (Key × Item) := []

namespace Table

/-- The table as an item. -/
def toItem (t : Table) : Item := .table t.standing t.entries

/-- The item with the given name. -/
def find? (t : Table) (name : String) : Option Item :=
  (t.entries.find? (·.1.name == name)).map Prod.snd

/-- The table with a new entry behind all others. -/
def append (t : Table) (key : Key) (item : Item) : Table :=
  { t with entries := t.entries ++ [(key, item)] }

/-- The table without the named entry. -/
def erase (t : Table) (name : String) : Table :=
  { t with entries := t.entries.filter (·.1.name != name) }

/-- The table with another item for a name that it has. -/
def replace (t : Table) (name : String) (item : Item) : Table :=
  { t with entries := t.entries.map fun e => if e.1.name == name then (e.1, item) else e }

/-- Changes the table at the end of a path.  Tables that are missing on the way are made with the
given standing; a list of tables leads into its last row.  A dotted key leads through no table that
has a header. -/
def modifyAt (made : Standing) (f : Table → Option Table) : List Key → Table → Option Table
  | [], t => f t
  | key :: path, t =>
    match t.find? key.name with
    | none => (modifyAt made f path { standing := made }).map fun child =>
        t.append key child.toItem
    | some (.value ..) => none
    | some (.table (.explicit line) entries) =>
      if made = .dotted then none
      else (modifyAt made f path ⟨.explicit line, entries⟩).map fun child =>
        t.replace key.name child.toItem
    | some (.table standing entries) =>
      (modifyAt made f path ⟨standing, entries⟩).map fun child => t.replace key.name child.toItem
    | some (.rows rows) => do
      let (line, entries) ← rows.getLast?
      let child ← modifyAt made f path ⟨.explicit line, entries⟩
      return t.replace key.name (.rows (rows.dropLast ++ [(line, child.entries)]))

/-- Adds an item under a key that is new in the table at the end of the path; a table of dotted keys
grows by dotted keys alone, and they make no other table grow. -/
def put (path : List Key) (key : Key) (item : Item) : Table → Option Table :=
  modifyAt .dotted (fun target =>
    if (target.standing == .dotted) == path.isEmpty || (target.find? key.name).isSome then none
    else some (target.append key item)) path

/-- Gives a header on the given line to the table under a key, which then comes last among the
entries around it. -/
def openTable (path : List Key) (key : Key) (line : Nat) : Table → Option Table :=
  modifyAt .implied (fun around =>
    match around.find? key.name with
    | none => some (around.append key (.table (.explicit line) []))
    | some (.table .implied entries) =>
      some ((around.erase key.name).append key (.table (.explicit line) entries))
    | some _ => none) path

/-- Begins a new row, with a header on the given line, of the list of tables under a key. -/
def openRow (path : List Key) (key : Key) (line : Nat) : Table → Option Table :=
  modifyAt .implied (fun around =>
    match around.find? key.name with
    | none => some (around.append key (.rows [(line, [])]))
    | some (.rows rows) => some (around.replace key.name (.rows (rows ++ [(line, [])])))
    | some _ => none) path

end Table

/-- The datum with the line of its table, if the table has one. -/
def Standing.mark (d : Datum) : Standing → Datum
  | .explicit line => .marked line d
  | .implied | .dotted => d

mutual

/-- The structured data of an item. -/
def Item.toDatum : Item → Datum
  | .value line d => .marked line d
  | .table standing entries => standing.mark (.record none (entryData entries))
  | .rows rows => .marked ((rows.head?.map Prod.fst).getD 0) (.list (rowData rows))

/-- The structured data of entries; each value is marked with the line of its key. -/
def entryData : List (Key × Item) → List (String × Datum)
  | [] => []
  | (key, item) :: es => (key.name, .marked key.line item.toDatum) :: entryData es

/-- The structured data of the rows of a list of tables. -/
def rowData : List (Nat × List (Key × Item)) → List Datum
  | [] => []
  | (line, entries) :: rows => .marked line (.record none (entryData entries)) :: rowData rows

end

end MentionAlign.Toml
