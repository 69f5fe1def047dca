import MentionAlign.Text.Digits

/-!
# Tokens of configuration text

A configuration text is read line by line: headers in brackets and pairs of a key and a value.  The
same tokens serve keys and values.  Every token knows its line, since faults are reported by line.
-/

namespace MentionAlign.Toml

/-- What a token is. -/
inductive TokenKind
  /-- Punctuation; `tight` says that it stands directly behind another punctuation token. -/
  | mark (c : Char) (tight : Bool)
  /-- A run of characters of keys, numerals, dates and truth values. -/
  | bare (chars : List Char)
  /-- A text, on one line or on several. -/
  | text (value : String) (severalLines : Bool)
  /-- A text, on one line or on several, that cannot be read on at the given line. -/
  | brokenText (line : Nat) (severalLines : Bool)
  | lineEnd
  /-- The end of the whole text, which may stand directly behind a comment. -/
  | ending (behindComment : Bool)
  /-- A character that a comment cannot hold, or a carriage return that ends no line. -/
  | brokenBlank
  /-- A character that begins no token. -/
  | stray
deriving DecidableEq, Repr

/-- A token with the line that it begins on. -/
structure Token where
  kind : TokenKind
  line : Nat
deriving DecidableEq, Repr

/-- Whether a character is a token by itself. -/
def isMark (c : Char) : Bool := "=,[]\x7b\x7d".toList.contains c

/-- Whether a name without quotation marks can hold the character. -/
def isNamePart (c : Char) : Bool := c.isAlphanum || c = '_' || c = '-'

/-- Whether a bare run can hold the character. -/
def isBarePart (c : Char) : Bool := isNamePart c || c = '+' || c = '.' || c = ':'

/-- Whether a comment or a text on one line can hold the character. -/
def isPlain (c : Char) : Bool := c = '\t' || (' ' ≤ c && c ≠ '\x7f')

/-- Whether the characters have the shape of a date: year, month and day with hyphens. -/
def isDateShape (cs : List Char) : Bool :=
  cs.length = 10 && cs.zipIdx.all fun (c, i) => if i = 4 ∨ i = 7 then c = '-' else c.isDigit

end MentionAlign.Toml
