import MentionAlign.Text.Decimal
import MentionAlign.Text.Digits

/-!
# Tokens of object notation

The notation writes records as `(name: value, ...)`, lists as `[value, ...]` and optional values as
`Some(value)` or `None`.  Its tokens are punctuation, words, texts and numerals.
-/

namespace MentionAlign.Ron

/-- A token of the notation. -/
inductive Token
  /-- A bracket, comma, colon, hash or exclamation mark. -/
  | mark (c : Char)
  /-- Parentheses with nothing between them, not even a blank. -/
  | unit
  | word (name : String)
  /-- A word behind `r#`, which is a name even where the word means something else. -/
  | rawWord (name : String)
  /-- The word `Some` with a raw text or a word behind `r#` joined to it. -/
  | joinedSome
  | text (value : String)
  | natural (value : Nat)
  /-- A numeral of another kind, or a single character in apostrophes. -/
  | scalar
  /-- What follows is no token. -/
  | broken
deriving DecidableEq, Repr

/-- Whether a character is a token by itself. -/
def isMark (c : Char) : Bool := "()[]\x7b\x7d,:#!".toList.contains c

/-- Whether a word can begin with the character. -/
def isWordStart (c : Char) : Bool := c.isAlpha || c = '_'

/-- Whether a word can go on with the character. -/
def isWordPart (c : Char) : Bool := c.isAlphanum || c = '_'

/-- Whether a word behind `r#` can hold the character. -/
def isRawWordPart (c : Char) : Bool := isWordPart c || c = '.' || c = '+' || c = '-'

/-- Whether a numeral can begin with the character. -/
def isNumeralStart (c : Char) : Bool := c.isDigit || c = '+' || c = '-' || c = '.'

/-- The base of a numeral without sign, and its digits. -/
def splitBase : List Char → Nat × List Char
  | '0' :: 'x' :: cs => (16, cs)
  | '0' :: 'b' :: cs => (2, cs)
  | '0' :: 'o' :: cs => (8, cs)
  | cs => (10, cs)

/-- The value of a whole number without sign; underscores may stand behind the first digit. -/
def whole? (cs : List Char) : Option Nat :=
  match splitBase cs with
  | (_, []) | (_, '_' :: _) => none
  | (base, digits) => Text.valueIn? base (digits.filter (· != '_'))

/-- Whether the characters spell a number with a sign that fits 64 bits. -/
def isSigned : List Char → Bool
  | '-' :: cs => (whole? cs).any (· ≤ Nat.pow 2 63)
  | '+' :: cs => (whole? cs).any (· < Nat.pow 2 63)
  | _ => false

/-- Whether the characters spell the digits of a fraction, with or without a point. -/
def isMantissa (cs : List Char) : Bool :=
  let before := cs.takeWhile (· != '.')
  let behind := (cs.dropWhile (· != '.')).drop 1
  (before ++ behind).all Char.isDigit && !(before ++ behind).isEmpty

/-- Whether the characters spell a number with a fraction or an exponent. -/
def isFraction (cs : List Char) : Bool :=
  let cs := Text.withoutSign cs
  let isExponentMark := fun c => c = 'e' || c = 'E'
  isMantissa (cs.takeWhile (!isExponentMark ·))
    && match cs.dropWhile (!isExponentMark ·) with
      | [] => true
      | _ :: exponent => Text.isDigits (Text.withoutSign exponent)

/-- Whether the characters are an infinity or an undefined number with a sign. -/
def isSignedWord (cs : List Char) : Bool :=
  ["+inf", "-inf", "+NaN", "-NaN"].any (·.toList == cs)

/-- The token that a numeral spells. -/
def numeral (cs : List Char) : Token :=
  match (whole? cs).filter (· < Text.offsetBound) with
  | some n => .natural n
  | none => if isSigned cs || isFraction cs || isSignedWord cs then .scalar else .broken

/-- The name that a word spells. -/
def Token.name? : Token → Option String
  | .word name | .rawWord name => some name
  | _ => none

/-- What is joined to `Some` in a word that begins with it. -/
def Token.behindSome? : Token → Option String
  | .word name =>
    match name.toList with
    | 'S' :: 'o' :: 'm' :: 'e' :: c :: cs => some (String.ofList (c :: cs))
    | _ => none
  | _ => none

end MentionAlign.Ron
