import MentionAlign.Data.Codec
import MentionAlign.Data.Toml.Lexer
import MentionAlign.Data.Toml.Statement

/-!
# Configuration text

A configuration text builds a table statement by statement: a header opens the table that the pairs
behind it go to.  Typed values are read from the complete table.
-/

namespace MentionAlign.Toml

/-- A table with the path of the table that pairs are added to. -/
structure Builder where
  root : Table := { standing := .explicit 1 }
  path : List Key := []

namespace Builder

/-- Adds a pair to the table that is open, which stands at the end of its path. -/
def addPair (b : Builder) (path : List Key) (key : Key) (value : Item) : Option Builder :=
  (b.root.modifyAt .implied (Table.put path key value) b.path).map fun root => { b with root }

/-- Opens the table or row of a header. -/
def openHeader (b : Builder) (path : List Key) (key : Key) (isRow : Bool) (line : Nat) :
    Option Builder :=
  (if isRow then b.root.openRow path key line else b.root.openTable path key line).map
    fun root => { root, path := path ++ [key] }

/-- Takes a statement; the fault of one that clashes with the table so far is on its line. -/
def take (b : Builder) : Statement → Except Fault Builder
  | .pair path key value =>
    match b.addPair path key value with
    | some b => .ok b
    | none => .error { cause := .mismatch, line := some key.line }
  | .header path key isRow line =>
    match b.openHeader path key isRow line with
    | some b => .ok b
    | none => .error { cause := .mismatch, line := some line }

end Builder

/-- The structured data of a text. -/
def read (s : String) : Except Fault Datum := do
  let (statements, failed) := readTokens (scan s.toList)
  let b ← statements.foldlM Builder.take {}
  match failed with
  | some line => .error { cause := .mismatch, line := some line }
  | none => .ok b.root.toItem.toDatum

/-- Configuration text, which is only read. -/
def reader : TextReader where
  read decode s := read s >>= decode .toml

end MentionAlign.Toml
