import MentionAlign.Data.Ron.Token

/-!
# From text to tokens

The scanner takes one character at a time.  Its mode says what the characters so far have left
open; each step gives the tokens that are complete now.  Blanks are the space, the tab and the two
line ends; comments run to the end of the line or stand between nested `/*` and `*/`.
-/

namespace MentionAlign.Ron

/-- How much of an escape sequence has been read. -/
inductive Escape
  /-- The next character stands for itself. -/
  | outside
  | backslash
  /-- Hexadecimal digits of a byte, `count` of two have been read. -/
  | byte (count value : Nat)
  /-- A brace has to open a code point. -/
  | brace
  /-- Hexadecimal digits of a code point, at most six. -/
  | codePoint (count value : Nat)
deriving DecidableEq, Repr

/-- What the characters so far have left open; collected characters stand in reverse. -/
inductive Mode
  | between
  /-- Directly behind an opening parenthesis. -/
  | opened
  /-- A slash that has to begin a comment. -/
  | slash
  | lineComment
  /-- A comment with the number of its open levels and the character before. -/
  | blockComment (depth : Nat) (last : Char)
  | word (chars : List Char)
  | numeral (chars : List Char)
  /-- A text or a single character, up to the given quotation mark. -/
  | quoted (mark : Char) (chars : List Char) (escape : Escape)
  /-- A letter `r` with hashes behind it. -/
  | raw (hashes : Nat)
  | rawWord (chars : List Char)
  /-- A text up to a quotation mark with the given number of hashes behind it; `closing` counts
  the hashes behind the last mark. -/
  | rawText (hashes : Nat) (chars : List Char) (closing : Option Nat)
  | failed
deriving DecidableEq, Repr

/-- The text of collected characters. -/
def collected (chars : List Char) : String := String.ofList chars.reverse

/-- The character that a letter stands for behind a backslash. -/
def escaped? (c : Char) : Option Char :=
  [('\'', '\''), ('"', '"'), ('\\', '\\'), ('n', '\n'), ('r', '\r'), ('t', '\t'),
    ('0', '\x00')].lookup c

/-- The token that a closed quotation makes. -/
def quotation (mark : Char) (chars : List Char) : Token :=
  if mark = '"' then .text (collected chars)
  else if chars.length = 1 then .scalar
  else .broken

/-- Takes a character inside a quotation. -/
def stepQuoted (mark : Char) (chars : List Char) (escape : Escape) (c : Char) : List Token × Mode :=
  let resume := fun decoded => ([], Mode.quoted mark (decoded :: chars) .outside)
  match escape with
  | .outside =>
    if c = mark ∧ quotation mark chars = .broken then ([], .failed)
    else if c = mark then ([quotation mark chars], .between)
    else if c = '\\' then ([], .quoted mark chars .backslash)
    else resume c
  | .backslash =>
    if c = 'x' then ([], .quoted mark chars (.byte 0 0))
    else if c = 'u' then ([], .quoted mark chars .brace)
    else match escaped? c with
      | some decoded => resume decoded
      | none => ([], .failed)
  | .byte count value =>
    match Text.hexDigit? c with
    | none => ([], .failed)
    | some d =>
      if count = 0 then ([], .quoted mark chars (.byte 1 d))
      else resume (Char.ofNat (16 * value + d))
  | .brace => if c = '\x7b' then ([], .quoted mark chars (.codePoint 0 0)) else ([], .failed)
  | .codePoint count value =>
    if c = '\x7d' then
      match (Text.charOfCode? value).filter fun _ => 0 < count with
      | some decoded => resume decoded
      | none => ([], .failed)
    else match (Text.hexDigit? c).filter fun _ => count < 6 with
      | some d => ([], .quoted mark chars (.codePoint (count + 1) (16 * value + d)))
      | none => ([], .failed)

/-- Takes a character that begins something new. -/
def stepBetween (c : Char) : List Token × Mode :=
  if c = ' ' || c = '\t' || c = '\n' || c = '\r' then ([], .between)
  else if c = '(' then ([], .opened)
  else if isMark c then ([.mark c], .between)
  else if isWordStart c then ([], .word [c])
  else if isNumeralStart c then ([], .numeral [c])
  else if c = '"' || c = '\'' then ([], .quoted c [] .outside)
  else if c = '/' then ([], .slash)
  else ([], .failed)

/-- The tokens that are complete when a mode ends where no character can go on. -/
def Mode.finish : Mode → List Token
  | between | lineComment => []
  | opened => [.mark '(']
  | word chars => [.word (collected chars)]
  | numeral chars => [Ron.numeral chars.reverse]
  | rawWord chars => [.rawWord (collected chars)]
  | rawText hashes chars closing =>
    if closing = some hashes then [.text (collected chars)] else [.broken]
  | slash | blockComment .. | quoted .. | raw _ | failed => [.broken]

/-- Ends the mode and takes the character as the beginning of something new. -/
def finishThen (mode : Mode) (c : Char) : List Token × Mode :=
  let (tokens, next) := stepBetween c
  (mode.finish ++ tokens, next)

/-- Takes a character inside a raw text that is not closed yet. -/
def stepRawText (hashes : Nat) (chars : List Char) (closing : Option Nat) (c : Char) :
    List Token × Mode :=
  let broken := (closing.map fun n => List.replicate n '#' ++ ['"']).getD []
  if c = '"' then ([], .rawText hashes (broken ++ chars) (some 0))
  else match closing with
    | some n =>
      if c = '#' then ([], .rawText hashes chars (some (n + 1)))
      else ([], .rawText hashes (c :: broken ++ chars) none)
    | none => ([], .rawText hashes (c :: chars) none)

/-- Takes a character behind a character of a word.  The letter `r` may begin a raw text or a raw
word, also where `Some` stands directly before it; a numeral may stand directly behind `Some`. -/
def stepWord (chars : List Char) (c : Char) : List Token × Mode :=
  let word := collected (c :: chars)
  if isWordPart c then ([], .word (c :: chars))
  else if word = "r#" then ([], .raw 1)
  else if word = "r\"" then ([], .rawText 0 [] none)
  else if word = "Somer#" then ([.joinedSome], .raw 1)
  else if word = "Somer\"" then ([.joinedSome], .rawText 0 [] none)
  else if isRawWordPart c ∧ collected chars ≠ "Some" then ([], .failed)
  else finishThen (.word chars) c

/-- Takes one character. -/
def step : Mode → Char → List Token × Mode
  | .between, c => stepBetween c
  | .opened, c => if c = ')' then ([.unit], .between) else finishThen .opened c
  | .slash, c =>
    if c = '/' then ([], .lineComment)
    else if c = '*' then ([], .blockComment 1 ' ')
    else ([], .failed)
  | .lineComment, c => ([], if c = '\n' then .between else .lineComment)
  | .blockComment depth last, c =>
    if last = '/' ∧ c = '*' then ([], .blockComment (depth + 1) ' ')
    else if last = '*' ∧ c = '/' then
      ([], if depth = 1 then .between else .blockComment (depth - 1) ' ')
    else ([], .blockComment depth c)
  | .word chars, c => stepWord chars c
  | .numeral chars, c =>
    if isRawWordPart c then ([], .numeral (c :: chars)) else finishThen (.numeral chars) c
  | .quoted mark chars escape, c => stepQuoted mark chars escape c
  | .raw hashes, c =>
    if c = '#' then ([], .raw (hashes + 1))
    else if c = '"' then ([], .rawText hashes [] none)
    else if hashes = 1 ∧ isRawWordPart c then ([], .rawWord [c])
    else ([], .failed)
  | .rawWord chars, c =>
    if isRawWordPart c then ([], .rawWord (c :: chars)) else finishThen (.rawWord chars) c
  | .rawText hashes chars closing, c =>
    if closing = some hashes then finishThen (.rawText hashes chars closing) c
    else stepRawText hashes chars closing c
  | .failed, _ => ([], .failed)

/-- The tokens of a text that is read from the given mode on. -/
def scanFrom (mode : Mode) : List Char → List Token
  | [] => mode.finish
  | c :: cs => (step mode c).1 ++ scanFrom (step mode c).2 cs

/-- The tokens of a text; where it cannot be read on, `broken` is the last one. -/
def scan (cs : List Char) : List Token := scanFrom .between cs

end MentionAlign.Ron
