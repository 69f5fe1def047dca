import MentionAlign.Text.Blank

/-!
# Lexemes of bracketed trees

A bracketed tree is a row of parentheses and words.  A word is a maximal run of characters that are
neither parentheses nor blank.  Each lexeme knows the byte position at which it starts.
-/

namespace MentionAlign

/-- What a lexeme is. -/
inductive LexemeKind
  | opening
  | closing
  | word (characters : List Char)
deriving DecidableEq, Repr

/-- A lexeme and the byte position of its first character. -/
structure Lexeme where
  kind : LexemeKind
  position : Nat
deriving DecidableEq, Repr

/-- The number of bytes that a text takes in UTF-8. -/
def Text.byteLength (cs : List Char) : Nat := cs.foldl (fun n c => n + c.utf8Size) 0

namespace Lexeme

/-- A character that can stand in a word. -/
def isWordChar (c : Char) : Bool := c ≠ '(' && c ≠ ')' && !Text.isBlank c

/-- The characters of a lexeme. -/
def characters (l : Lexeme) : List Char :=
  match l.kind with
  | .opening => ['(']
  | .closing => [')']
  | .word cs => cs

/-- The lexemes of a text whose first character stands at byte `position`. -/
def scanFrom (position : Nat) : List Char → List Lexeme
  | [] => []
  | c :: cs =>
    if c = '(' then ⟨.opening, position⟩ :: scanFrom (position + c.utf8Size) cs
    else if c = ')' then ⟨.closing, position⟩ :: scanFrom (position + c.utf8Size) cs
    else if Text.isBlank c then scanFrom (position + c.utf8Size) cs
    else
      let word := c :: cs.takeWhile isWordChar
      ⟨.word word, position⟩ :: scanFrom (position + Text.byteLength word) (cs.dropWhile isWordChar)
termination_by cs => cs.length
decreasing_by
  all_goals simp only [List.length_cons]
  all_goals first
    | omega
    | exact Nat.lt_succ_of_le (List.dropWhile_suffix _).length_le

/-- The lexemes of a text. -/
def scan (cs : List Char) : List Lexeme := scanFrom 0 cs

end Lexeme

end MentionAlign
