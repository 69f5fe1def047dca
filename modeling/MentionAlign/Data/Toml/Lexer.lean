import MentionAlign.Data.Toml.Token

/-!
# From text to tokens

The scanner takes one character at a time and counts the lines.  A text between single marks ends
on its line; between triple marks it may span lines, a line break directly behind the opening marks
is dropped, and up to two marks may stand before the closing ones.
-/

namespace MentionAlign.Toml

/-- How far the scanner is inside a text. -/
inductive TextState
  /-- Directly behind triple opening marks. -/
  | fresh
  | inside
  /-- Behind a number of marks that may close a text between triple marks. -/
  | marks (count : Nat)
  | backslash
  /-- Hexadecimal digits of a code point are to come. -/
  | code (left value : Nat)
  /-- Blanks behind a backslash; the line has to end. -/
  | blanks
  /-- Blanks and line ends behind a backslash at the end of a line. -/
  | folding
deriving DecidableEq, Repr

/-- A text that is still open; its characters stand in reverse. -/
structure OpenText where
  mark : Char
  severalLines : Bool
  line : Nat
  chars : List Char := []
  state : TextState
deriving DecidableEq, Repr

/-- What the characters so far have left open; collected characters stand in reverse. -/
inductive Mode
  /-- Between tokens; `tight` says that the character before is punctuation. -/
  | between (tight : Bool)
  | comment
  | bare (chars : List Char)
  /-- A date with a space behind it, which may be followed by a time. -/
  | date (chars : List Char)
  /-- One or two quotation marks that may turn out to be three. -/
  | opening (mark : Char) (count : Nat)
  | text (t : OpenText)
  /-- The rest of a text that cannot be read. -/
  | lost
deriving DecidableEq, Repr

/-- The character that a letter stands for behind a backslash. -/
def escaped? (c : Char) : Option Char :=
  [('b', '\x08'), ('f', '\x0c'), ('n', '\n'), ('r', '\r'), ('t', '\t'), ('\\', '\\'),
    ('"', '"')].lookup c

/-- The token of a text that is closed, with `extra` of the closing marks inside. -/
def OpenText.close (t : OpenText) (extra : Nat) : Token :=
  { kind := .text (String.ofList (List.replicate extra t.mark ++ t.chars).reverse) t.severalLines
    line := t.line }

/-- The token of a text that breaks off at the given line. -/
def OpenText.break (t : OpenText) (line : Nat) : Token :=
  { kind := .brokenText line t.severalLines, line := t.line }

/-- The tokens that are complete when a mode ends at the given line. -/
def Mode.finish (line : Nat) : Mode → List Token
  | between _ | comment | lost => []
  | bare chars | date chars => [{ kind := .bare chars.reverse, line }]
  | opening _ count => if count = 2 then [{ kind := .text "" false, line }] else
      [{ kind := .brokenText line false, line }]
  | text t =>
    match t.state with
    | .marks count => if 3 ≤ count then [t.close (count - 3)] else [t.break line]
    | _ => [t.break line]

/-- Takes a character that begins something new. -/
def stepBetween (tight : Bool) (line : Nat) (c : Char) : List Token × Mode :=
  if c = ' ' || c = '\t' then ([], .between false)
  else if c = '\n' then ([{ kind := .lineEnd, line }], .between false)
  else if isMark c then ([{ kind := .mark c tight, line }], .between true)
  else if isBarePart c then ([], .bare [c])
  else if c = '"' || c = '\'' then ([], .opening c 1)
  else if c = '#' then ([], .comment)
  else ([{ kind := if c = '\r' then .brokenBlank else .stray, line }], .lost)

/-- Ends the mode and takes the character as the beginning of something new. -/
def finishThen (mode : Mode) (line : Nat) (c : Char) : List Token × Mode :=
  let (tokens, next) := stepBetween false line c
  (mode.finish line ++ tokens, next)

/-- Takes a character of a text that stands for itself. -/
def stepInside (t : OpenText) (line : Nat) (c : Char) : List Token × Mode :=
  if c = t.mark then
    if t.severalLines then ([], .text { t with state := .marks 1 })
    else ([t.close 0], .between false)
  else if c = '\\' ∧ t.mark = '"' then ([], .text { t with state := .backslash })
  else if isPlain c || (c = '\n' && t.severalLines) then
    ([], .text { t with chars := c :: t.chars, state := .inside })
  else ([t.break line], .lost)

/-- Takes a character behind a backslash.  A text that cannot be read on stops behind the character,
so that a line end counts for the next line. -/
def stepEscape (t : OpenText) (line : Nat) (c : Char) : List Token × Mode :=
  if c = 'u' then ([], .text { t with state := .code 4 0 })
  else if c = 'U' then ([], .text { t with state := .code 8 0 })
  else match escaped? c with
    | some decoded => ([], .text { t with chars := decoded :: t.chars, state := .inside })
    | none =>
      if t.severalLines ∧ (c = ' ' ∨ c = '\t') then ([], .text { t with state := .blanks })
      else if t.severalLines ∧ c = '\n' then ([], .text { t with state := .folding })
      else ([t.break (if c = '\n' then line + 1 else line)], .lost)

/-- Takes a hexadecimal digit of a code point, of which `left` are to come. -/
def stepCode (t : OpenText) (left value line : Nat) (c : Char) : List Token × Mode :=
  match Text.hexDigit? c with
  | none => ([t.break line], .lost)
  | some d =>
    if 1 < left then ([], .text { t with state := .code (left - 1) (16 * value + d) })
    else match Text.charOfCode? (16 * value + d) with
      | some decoded => ([], .text { t with chars := decoded :: t.chars, state := .inside })
      | none => ([t.break line], .lost)

/-- Takes a character inside a text. -/
def stepText (t : OpenText) (line : Nat) (c : Char) : List Token × Mode :=
  match t.state with
  | .fresh => if c = '\n' then ([], .text { t with state := .inside }) else stepInside t line c
  | .inside => stepInside t line c
  | .marks count =>
    if c = t.mark then
      if count = 4 then ([t.close 2], .between false)
      else ([], .text { t with state := .marks (count + 1) })
    else if 3 ≤ count then finishThen (.text t) line c
    else stepInside { t with chars := List.replicate count t.mark ++ t.chars } line c
  | .backslash => stepEscape t line c
  | .code left value => stepCode t left value line c
  | .blanks =>
    if c = ' ' || c = '\t' then ([], .text t)
    else if c = '\n' then ([], .text { t with state := .folding })
    else ([t.break line], .lost)
  | .folding =>
    if c = ' ' || c = '\t' || c = '\n' then ([], .text t) else stepInside t line c

/-- Takes one character on the given line. -/
def step (mode : Mode) (line : Nat) (c : Char) : List Token × Mode :=
  match mode with
  | .between tight => stepBetween tight line c
  | .comment =>
    if c = '\n' then stepBetween false line c
    else if isPlain c then ([], .comment)
    else ([{ kind := .brokenBlank, line }], .lost)
  | .bare chars =>
    if isBarePart c then ([], .bare (c :: chars))
    else if c = ' ' ∧ isDateShape chars.reverse then ([], .date chars)
    else finishThen (.bare chars) line c
  | .date chars =>
    if c.isDigit then ([], .bare (c :: ' ' :: chars)) else finishThen (.date chars) line c
  | .opening mark count =>
    if c = mark then
      if count = 1 then ([], .opening mark 2)
      else ([], .text { mark, severalLines := true, line, state := .fresh })
    else if count = 2 then finishThen (.opening mark 2) line c
    else stepInside { mark, severalLines := false, line, state := .inside } line c
  | .text t => stepText t line c
  | .lost => ([], .lost)

/-- Whether a backslash has been read in a text on one line. -/
def Mode.isEscaping : Mode → Bool
  | text t => !t.severalLines && t.state == .backslash
  | _ => false

/-- The tokens of a text that is read from the given mode and line on.  A carriage return and a line
feed are one line end, except where a backslash makes the first of them stand alone. -/
def scanFrom (mode : Mode) (line : Nat) : List Char → List Token
  | [] => mode.finish line ++ [{ kind := .ending (mode == .comment), line }]
  | '\r' :: '\n' :: cs =>
    let (tokens, next) := step mode line (if mode.isEscaping then '\r' else '\n')
    tokens ++ scanFrom next (line + 1) cs
  | c :: cs =>
    let (tokens, next) := step mode line c
    tokens ++ scanFrom next (if c = '\n' then line + 1 else line) cs

/-- The text without a byte order mark at its beginning. -/
def withoutOrderMark : List Char → List Char
  | '\ufeff' :: cs => cs
  | cs => cs

/-- The tokens of a text; `ending` is the last one. -/
def scan (cs : List Char) : List Token :=
  scanFrom (.between false) 1 (withoutOrderMark cs)

end MentionAlign.Toml
