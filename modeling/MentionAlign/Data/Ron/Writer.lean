import MentionAlign.Data.Datum
import MentionAlign.Text.Quoted

/-!
# From structured data to text

Records and lists have one part per line, each with a comma behind it and four blanks before it for
every open bracket.  A text that nests too deep for its readers is not written.
-/

namespace MentionAlign.Ron

/-- A line break before a line at the given level. -/
def lineBreak (level : Nat) : List Char := '\n' :: List.replicate (4 * level) ' '

mutual

/-- Writes a value that begins on a line at the given level. -/
def write (level : Nat) : Datum → List Char
  | .absent => "None".toList
  | .present d => "Some(".toList ++ write level d ++ [')']
  | .boolean b => (if b then "true" else "false").toList
  | .natural n => Nat.toDigits 10 n
  | .text s => (Text.quote .escaped s).toList
  | .list [] => "[]".toList
  | .list (d :: ds) => '[' :: writeItems (level + 1) (d :: ds) ++ lineBreak level ++ [']']
  | .record _ [] => "()".toList
  | .record _ (e :: es) => '(' :: writeEntries (level + 1) (e :: es) ++ lineBreak level ++ [')']
  | .marked _ d | .either d _ | .unclosed d => write level d
  | .moment shown => (Text.quote .escaped shown).toList
  | .scalar | .other _ | .broken => "()".toList

/-- Writes the items of a list. -/
def writeItems (level : Nat) : List Datum → List Char
  | [] => []
  | d :: ds => lineBreak level ++ write level d ++ ',' :: writeItems level ds

/-- Writes the entries of a record. -/
def writeEntries (level : Nat) : List (String × Datum) → List Char
  | [] => []
  | (name, d) :: es =>
    lineBreak level ++ name.toList ++ ": ".toList ++ write level d ++ ',' :: writeEntries level es

end

mutual

/-- How deep the parts of a datum nest: a part of a list, a record or an option nests one deeper. -/
def height : Datum → Nat
  | .present d => height d + 1
  | .list items => heightOfItems items
  | .record _ entries => heightOfEntries entries
  | .marked _ d | .either d _ | .unclosed d => height d
  | .absent | .boolean _ | .natural _ | .text _ | .moment _ | .scalar | .other _ | .broken => 0

/-- How deep the items of a list nest, seen from the list. -/
def heightOfItems : List Datum → Nat
  | [] => 0
  | d :: ds => max (height d + 1) (heightOfItems ds)

/-- How deep the entries of a record nest, seen from the record. -/
def heightOfEntries : List (String × Datum) → Nat
  | [] => 0
  | (_, d) :: es => max (height d + 1) (heightOfEntries es)

end

end MentionAlign.Ron
