import MentionAlign.Text.Lossy

/-!
# Folders of fixtures

Fixtures are files below a folder, at any depth.  A file is a fixture when its name has the
extension of configuration texts and is not the name of a ledger.  Names are bytes and need not be
texts, so a fixture is known by the text that shows its path.
-/

namespace MentionAlign

/-- The name of a file or folder. -/
abbrev FileName := List UInt8

/-- A file or a folder. -/
inductive FileTree
  /-- A file with its text; a file whose bytes are no text has none. -/
  | file (text : Option String)
  /-- A folder with its named entries, in any order. -/
  | folder (entries : List (FileName × FileTree))

namespace FileTree

/-- The folder without entries. -/
def empty : FileTree := folder []

/-- The entries of a folder; a file has none. -/
def entries : FileTree → List (FileName × FileTree)
  | folder es => es
  | file _ => []

/-- What stands at a path. -/
def find? : List FileName → FileTree → Option FileTree
  | [], t => some t
  | name :: path, t => (t.entries.lookup name).bind (find? path)

/-- The tree with a file at a path, and with the folders on the way. -/
def insert (text : Option String) : List FileName → FileTree → FileTree
  | [], _ => file text
  | name :: path, t =>
    let below := insert text path ((t.entries.lookup name).getD empty)
    folder (t.entries.filter (·.1 != name) ++ [(name, below)])

end FileTree

/-- The name of a ledger. -/
def ledgerName : String := "expected-failures.toml"

/-- The ending of the names of fixtures. -/
def fixtureEnding : FileName := Text.bytes ".toml"

/-- Whether a file of this name is a fixture; a name that is nothing but an ending has none. -/
def isFixtureName (name : FileName) : Bool :=
  fixtureEnding.isSuffixOf name && fixtureEnding.length < name.length
    && name != Text.bytes ledgerName

namespace FileTree

mutual

/-- The fixture files of a file or folder with the given name in the folder at the given path, each
under the text that shows its path. -/
def fixtureFilesAt (path : List UInt8) (name : FileName) : FileTree → List (String × Option String)
  | file text => if isFixtureName name then [(Text.shown (path ++ name), text)] else []
  | folder es => fixtureFilesAmong (path ++ name ++ Text.bytes "/") es

/-- The fixture files among the entries of the folder at the given path. -/
def fixtureFilesAmong (path : List UInt8) :
    List (FileName × FileTree) → List (String × Option String)
  | [] => []
  | (name, t) :: es => fixtureFilesAt path name t ++ fixtureFilesAmong path es

end

/-- The fixture files below a folder, in rising order of the texts that show their paths. -/
def fixtureFiles (t : FileTree) : List (String × Option String) :=
  (fixtureFilesAmong [] t.entries).mergeSort fun a b => a.1 ≤ b.1

end FileTree

end MentionAlign
