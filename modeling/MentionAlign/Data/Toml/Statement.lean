import MentionAlign.Data.Toml.Scalar
import MentionAlign.Data.Toml.Table
import MentionAlign.Data.Toml.Token
import MentionAlign.Text.Split

/-!
# Statements

A configuration text is a row of headers and pairs.  The reader takes one token at a time and keeps
the lists and braces that are open inside a value.  It stops at the first token that fits nothing.
-/

namespace MentionAlign.Toml

/-- A line, or more, of a configuration text. -/
inductive Statement
  /-- A header; `isRow` says that it begins a new row of a list of tables. -/
  | header (path : List Key) (key : Key) (isRow : Bool) (line : Nat)
  | pair (path : List Key) (key : Key) (value : Item)

/-- Whether the token begins with a name. -/
def Token.beginsKey (t : Token) : Bool :=
  match t.kind with
  | .bare chars => chars.head?.any isNamePart
  | .text .. | .brokenText .. => true
  | _ => false

/-- A key as far as it has been read; its names stand in reverse. -/
structure OpenKey where
  names : List Key := []
  /-- Whether the last name is there, so that only a dot can follow. -/
  complete : Bool := false

/-- Values and keys nest less deep than this. -/
def nestingLimit : Nat := 80

/-- A value that is still open; its parts stand in reverse. -/
inductive Frame
  | list (line : Nat) (items : List Datum)
  /-- Braces with their pairs, and the key whose value is to come. -/
  | braces (line : Nat) (pairs : List (List Key × Key × Item)) (key : List Key × Key)

/-- Where a key stands. -/
inductive KeyPlace
  | pair
  | header (isRow : Bool) (line : Nat)
  /-- Inside braces that begin on the given line, behind the given pairs in reverse. -/
  | braces (line : Nat) (pairs : List (List Key × Key × Item))

/-- What the next token has to be. -/
inductive Stage
  | lineStart
  /-- A bracket has been opened at the start of a line. -/
  | bracket (line : Nat)
  | key (place : KeyPlace) (read : OpenKey)
  /-- The second closing bracket of the header of a row. -/
  | secondBracket (statement : Statement)
  /-- The end of the line behind a statement. -/
  | lineEnd (statement : Statement)
  /-- The value of the pair with the given key, or of what is open inside it. -/
  | value
  /-- An item of a list, or its end. -/
  | item
  /-- A comma, or the end of what is open. -/
  | delimiter
  /-- The first key inside braces, or their end. -/
  | firstKey (line : Nat)
  | finished
  | failed (line : Nat)

/-- The state of the reader. -/
structure Reader where
  stage : Stage := .lineStart
  /-- The key of the pair whose value is read. -/
  key : List Key × Key := ([], ⟨"", 0⟩)
  /-- The open values, the innermost one first. -/
  frames : List Frame := []
  /-- The statements so far, in reverse. -/
  statements : List Statement := []

namespace OpenKey

/-- Takes a name. -/
def takeName (k : OpenKey) (name : String) (line : Nat) : Option OpenKey :=
  if k.complete then none else some { names := ⟨name, line⟩ :: k.names, complete := true }

/-- Takes a dot. -/
def takeDot (k : OpenKey) : Option OpenKey :=
  if k.complete then some { k with complete := false } else none

/-- Takes a part of a bare run between dots. -/
def takePart (line : Nat) (k : OpenKey) (part : List Char) : Option OpenKey :=
  if part.isEmpty then some k
  else if part.all isNamePart then k.takeName (String.ofList part) line
  else none

/-- Takes a bare run: names with dots between, before and behind them. -/
def takeBare (k : OpenKey) (chars : List Char) (line : Nat) : Option OpenKey :=
  match Text.splitAt '.' chars with
  | [] => none
  | part :: parts => do
    parts.foldlM (fun k part => k.takeDot >>= fun k => takePart line k part)
      (← takePart line k part)

/-- Takes a token of a key. -/
def take (k : OpenKey) (t : Token) : Option OpenKey :=
  match t.kind with
  | .bare chars => k.takeBare chars t.line
  | .text value false => k.takeName value t.line
  | _ => none

/-- The path and the last name of a complete key. -/
def close? (k : OpenKey) : Option (List Key × Key) :=
  match k.names with
  | key :: path =>
    if k.complete && k.names.length < nestingLimit then some (path.reverse, key) else none
  | [] => none

end OpenKey

/-- The table inside braces that begin on the given line; its pairs stand in reverse. -/
def bracesTable? (line : Nat) (pairs : List (List Key × Key × Item)) : Option Table :=
  pairs.reverse.foldlM (fun t (path, key, item) => t.put path key item)
    { standing := .explicit line }

namespace Reader

/-- Stops at the given line. -/
def fail (r : Reader) (line : Nat) : Reader := { r with stage := .failed line }

/-- Stops inside braces: what they repeat is a fault at their beginning, and comes first. -/
def failInBraces (r : Reader) (opening : Nat) (pairs : List (List Key × Key × Item)) (line : Nat) :
    Reader :=
  r.fail (if (bracesTable? opening pairs).isSome then line else opening)

/-- Hands a complete value that begins on the given line to what is open around it. -/
def deliver (r : Reader) (line : Nat) (d : Datum) : List Frame → Reader
  | [] => { r with stage := .lineEnd (.pair r.key.1 r.key.2 (.value line d)), frames := [] }
  | .list opening items :: around =>
    { r with stage := .delimiter, frames := .list opening (.marked line d :: items) :: around }
  | .braces opening pairs key :: around =>
    { r with
      stage := .delimiter
      frames := .braces opening ((key.1, key.2, .value line d) :: pairs) key :: around }

/-- Closes braces around the given pairs. -/
def closeBraces (r : Reader) (opening : Nat) (pairs : List (List Key × Key × Item))
    (around : List Frame) : Reader :=
  match bracesTable? opening pairs with
  | some t => r.deliver opening (.record none (entryData t.entries)) around
  | none => r.fail opening

/-- Takes something at the given line that cannot stand behind a value. -/
def failBehind (r : Reader) (line : Nat) : Reader :=
  match r.frames with
  | .braces opening pairs _ :: _ => r.failInBraces opening pairs line
  | _ => r.fail line

/-- Takes the first token of a value. -/
def takeValue (r : Reader) (t : Token) : Reader :=
  match t.kind with
  | .text value _ => r.deliver t.line (.text value) r.frames
  | .brokenText line _ => r.fail line
  | .bare chars =>
    match scalar chars with
    | .found d [] => r.deliver t.line d r.frames
    | .found d _ => (r.deliver t.line d r.frames).failBehind t.line
    | .absent | .wrong => r.fail t.line
  | .mark '[' _ =>
    if r.frames.length + 1 < nestingLimit then
      { r with stage := .item, frames := .list t.line [] :: r.frames }
    else r.fail t.line
  | .mark '\x7b' _ =>
    if r.frames.length + 1 < nestingLimit then { r with stage := .firstKey t.line }
    else r.fail t.line
  | _ => r.fail t.line

/-- Takes a token behind a value inside a list or braces.  Blanks that cannot be read on take the
item before them along. -/
def takeDelimiter (r : Reader) (t : Token) : Reader :=
  match r.frames, t.kind with
  | .list .. :: _, .lineEnd => r
  | .list .. :: _, .mark ',' _ => { r with stage := .item }
  | .list opening items :: around, .mark ']' _ =>
    r.deliver opening (.list items.reverse) around
  | .list _ items :: _, .brokenBlank | .list _ items :: _, .ending true =>
    r.fail ((items.head?.bind Datum.line?).getD t.line)
  | .braces opening pairs _ :: around, .mark ',' _ =>
    { r with stage := .key (.braces opening pairs) {}, frames := around }
  | .braces opening pairs _ :: around, .mark '\x7d' _ => r.closeBraces opening pairs around
  | _, _ => r.failBehind t.line

/-- Goes on behind a complete key and the token behind it. -/
def closeKey (r : Reader) (place : KeyPlace) (key : List Key × Key) (t : Token) : Reader :=
  match place, t.kind with
  | .pair, .mark '=' _ => { r with stage := .value, key }
  | .braces opening pairs, .mark '=' _ =>
    { r with stage := .value, frames := .braces opening pairs key :: r.frames }
  | .header false line, .mark ']' _ =>
    { r with stage := .lineEnd (.header key.1 key.2 false line) }
  | .header true line, .mark ']' _ =>
    { r with stage := .secondBracket (.header key.1 key.2 true line) }
  | _, _ => r.fail t.line

/-- Takes a token that no key goes on with.  A text on one line stops where it cannot be read on; in
braces, where no key has begun, the pairs before are complete. -/
def failInKey (r : Reader) (place : KeyPlace) (read : OpenKey) (t : Token) : Reader :=
  match t.kind, place with
  | .brokenText line false, _ => r.fail line
  | _, .braces opening pairs =>
    if read.names.isEmpty && !t.beginsKey then r.failInBraces opening pairs t.line
    else r.fail t.line
  | _, _ => r.fail t.line

/-- Takes a token of a key, or the one behind it. -/
def takeKey (r : Reader) (place : KeyPlace) (read : OpenKey) (t : Token) : Reader :=
  match read.take t, read.close? with
  | some read, _ => { r with stage := .key place read }
  | none, some key => r.closeKey place key t
  | none, none => r.failInKey place read t

/-- Takes a token at the start of a line. -/
def takeLineStart (r : Reader) (t : Token) : Reader :=
  match t.kind with
  | .lineEnd => r
  | .ending _ => { r with stage := .finished }
  | .mark '[' _ => { r with stage := .bracket t.line }
  | _ => r.takeKey .pair {} t

/-- Takes the token behind a statement. -/
def takeLineEnd (r : Reader) (statement : Statement) (t : Token) : Reader :=
  match t.kind with
  | .lineEnd => { r with stage := .lineStart, statements := statement :: r.statements }
  | .ending _ => { r with stage := .finished, statements := statement :: r.statements }
  | _ => r.fail t.line

/-- Takes one token. -/
def step (r : Reader) (t : Token) : Reader :=
  match r.stage with
  | .lineStart => r.takeLineStart t
  | .bracket line =>
    match t.kind with
    | .mark '[' true => { r with stage := .key (.header true line) {} }
    | _ => r.takeKey (.header false line) {} t
  | .key place read => r.takeKey place read t
  | .secondBracket statement =>
    match t.kind with
    | .mark ']' true => { r with stage := .lineEnd statement }
    | _ => r.fail t.line
  | .lineEnd statement => r.takeLineEnd statement t
  | .value => r.takeValue t
  | .item =>
    match t.kind with
    | .lineEnd => r
    | .mark ']' _ => r.takeDelimiter t
    | _ => r.takeValue t
  | .delimiter => r.takeDelimiter t
  | .firstKey opening =>
    match t.kind with
    | .mark '\x7d' _ => r.closeBraces opening [] r.frames
    | _ => r.takeKey (.braces opening []) {} t
  | .finished | .failed _ => r

end Reader

/-- The statements of a text, and the line where it cannot be read on, if there is one. -/
def readTokens (ts : List Token) : List Statement × Option Nat :=
  let r := ts.foldl Reader.step {}
  (r.statements.reverse, match r.stage with
    | .failed line => some line
    | _ => none)

end MentionAlign.Toml
