import MentionAlign.Data.Datum
import MentionAlign.Data.Ron.Token

/-!
# From tokens to structured data

The reader takes one token at a time.  It keeps the values that are still open, the innermost one
first, so that a text which breaks off still shows what it held up to there: the open values are
closed around `broken`.

Two texts show one value where a type is asked for and another where they are passed over.  Where
optional values may stand without `Some`, that word may also be joined to the value, and the whole
then looks like a name.  Pairs in parentheses are a record and have names for keys; pairs in braces
have keys of any kind.
-/

namespace MentionAlign.Ron

/-- A value that is still open; collected parts stand in reverse. -/
inductive Frame
  /-- `Some` with parentheses, and the value once it is there. -/
  | some (value : Option Datum)
  /-- `Some` without parentheses; `joined` says that nothing stands between it and the value. -/
  | bareSome (joined : Bool)
  | list (items : List Datum)
  | tuple (items : List Datum)
  /-- A record, with the word before it and the name of the field whose value is to come. -/
  | record (word : Option Token) (entries : List (String × Datum)) (field : Option String)
  /-- Pairs in braces, with keys of any kind; `paired` says that a key waits for its value. -/
  | pairs (parts : List Datum) (paired : Bool)

/-- Where the reader stands in the line that switches rules of the notation. -/
inductive Switch
  | bang
  | bracket
  | keyword
  | opening
  | name
  | comma
  | nameOrClosing
  | closing
deriving DecidableEq, Repr

/-- What the next token has to be. -/
inductive Stage
  /-- Nothing has been read but switches. -/
  | start
  | switching (next : Switch)
  | value
  /-- A value, or the end of the innermost open value. -/
  | valueOrClosing
  /-- The word `Some` has been read. -/
  | someName
  /-- A word has been read that may stand before a value in parentheses. -/
  | named (word : Token)
  /-- A parenthesis has been opened behind a word or none. -/
  | opened (word : Option Token)
  /-- A parenthesis has been opened and a word stands behind it. -/
  | openedWord (before : Option Token) (word : Token)
  /-- The name of a field, or the end of the record. -/
  | field
  | colon
  /-- A comma, or the end of the innermost open value. -/
  | delimiter
  /-- The end of the innermost open value. -/
  | closing
  | finished (root : Datum)
  /-- More tokens stand behind the value. -/
  | surplus (root : Datum)
  | failed
deriving Inhabited

/-- The state of the reader. -/
structure Reader where
  stage : Stage
  /-- The open values, the innermost one first. -/
  frames : List Frame := []
  /-- Whether optional values may stand without `Some`. -/
  implicitSome : Bool := false

/-- The rules that can be switched on. -/
def switches : List String := ["unwrap_newtypes", "implicit_some", "unwrap_variant_newtypes"]

/-- A word that stands alone is a name; with `Some` at its beginning it may be an optional
number. -/
def loneWord (implicitSome : Bool) (word : Token) : Datum :=
  match word.behindSome?.filter fun _ => implicitSome with
  | some rest =>
    match numeral rest.toList with
    | .natural n => .either (.present (.natural n)) .scalar
    | _ => .scalar
  | none => .scalar

/-- A record with the word before it, which names its type; with `Some` at the beginning of the word
it may be an optional record. -/
def wordedRecord (implicitSome : Bool) (word : Option Token) (entries : List (String × Datum)) :
    Datum :=
  let named := .record (word.bind Token.name?) entries
  match (word.bind Token.behindSome?).filter fun _ => implicitSome with
  | some rest => .either (.present (.record (some rest) entries)) named
  | none => named

/-- A value behind `Some` without parentheses. -/
def barePresent (joined : Bool) (d : Datum) : Datum :=
  if joined then .either (.present d) .broken else .present d

namespace Reader

/-- Gives up. -/
def fail (r : Reader) : Reader := { r with stage := .failed }

/-- Hands a complete value to the innermost open one. -/
def deliver (r : Reader) (d : Datum) : List Frame → Reader
  | [] => { r with stage := .finished d, frames := [] }
  | .some _ :: around => { r with stage := .delimiter, frames := .some (some d) :: around }
  | .bareSome joined :: around => r.deliver (barePresent joined d) around
  | .list items :: around => { r with stage := .delimiter, frames := .list (d :: items) :: around }
  | .tuple items :: around =>
    { r with stage := .delimiter, frames := .tuple (d :: items) :: around }
  | .record word entries field :: around =>
    { r with
      stage := .delimiter
      frames := .record word ((field.getD "", d) :: entries) none :: around }
  | .pairs parts paired :: around =>
    { r with
      stage := if paired then .delimiter else .colon
      frames := .pairs (d :: parts) (!paired) :: around }

/-- Opens a value; what follows is given by the stage. -/
def enter (r : Reader) (frame : Frame) (stage : Stage) : Reader :=
  { r with stage, frames := frame :: r.frames }

/-- Closes the innermost open value. -/
def close (r : Reader) (closing : Char) : Reader :=
  match closing, r.frames with
  | ')', .some (some d) :: around => r.deliver (.present d) around
  | ']', .list items :: around => r.deliver (.list items.reverse) around
  | ')', .tuple items :: around => r.deliver (.other items.reverse) around
  | ')', .record word entries none :: around =>
    r.deliver (wordedRecord r.implicitSome word entries.reverse) around
  | '\x7d', .pairs parts false :: around => r.deliver (.other parts.reverse) around
  | _, _ => r.fail

/-- Goes on behind a comma. -/
def next (r : Reader) : Reader :=
  match r.frames with
  | .bareSome _ :: _ | [] => r.fail
  | .some _ :: _ => { r with stage := .closing }
  | .record .. :: _ => { r with stage := .field }
  | .list _ :: _ | .tuple _ :: _ | .pairs .. :: _ => { r with stage := .valueOrClosing }

/-- Takes the first token of a value. -/
def beginValue (r : Reader) : Token → Reader
  | .word "None" => r.deliver .absent r.frames
  | .word "Some" => { r with stage := .someName }
  | .word "true" => r.deliver (.boolean true) r.frames
  | .word "false" => r.deliver (.boolean false) r.frames
  | .word "inf" | .word "NaN" | .scalar | .unit => r.deliver .scalar r.frames
  | .word name => { r with stage := .named (.word name) }
  | .rawWord name => { r with stage := .named (.rawWord name) }
  | .joinedSome => if r.implicitSome then r.enter (.bareSome true) .value else r.fail
  | .text value => r.deliver (.text value) r.frames
  | .natural n => r.deliver (.natural n) r.frames
  | .mark '(' => { r with stage := .opened none }
  | .mark '[' => r.enter (.list []) .valueOrClosing
  | .mark '\x7b' => r.enter (.pairs [] false) .valueOrClosing
  | .mark _ | .broken => r.fail

/-- Takes a comma or the end of the innermost open value. -/
def takeDelimiter (r : Reader) : Token → Reader
  | .mark ',' => r.next
  | .mark c => r.close c
  | _ => r.fail

/-- Takes the end of the innermost open value, or the first token of a value. -/
def takeValueOrClosing (r : Reader) (t : Token) : Reader :=
  if t = .mark ']' ∨ t = .mark ')' ∨ t = .mark '\x7d' then r.takeDelimiter t else r.beginValue t

/-- Takes the colon behind a key. -/
def takeColon (r : Reader) (t : Token) : Reader :=
  if t = .mark ':' then { r with stage := .value } else r.fail

/-- Takes the token behind a complete value. -/
def takeBehind (r : Reader) (t : Token) : Reader :=
  match r.stage with
  | .delimiter => r.takeDelimiter t
  | .colon => r.takeColon t
  | _ => r.fail

/-- Takes the token behind a name. -/
def takeNamed (r : Reader) (word t : Token) : Reader :=
  match t with
  | .mark '(' => { r with stage := .opened (some word) }
  | .unit => r.deliver (wordedRecord r.implicitSome (some word) []) r.frames
  | _ => (r.deliver (loneWord r.implicitSome word) r.frames).takeBehind t

/-- Takes the token behind `Some`. -/
def takeSome (r : Reader) (t : Token) : Reader :=
  match t with
  | .mark '(' => r.enter (.some none) .value
  | .unit => r.fail
  | _ => if r.implicitSome then (r.enter (.bareSome false) .value).beginValue t else r.fail

/-- Takes the token behind a word that is or begins a value. -/
def takeBehindWord (r : Reader) (t : Token) : Reader :=
  match r.stage with
  | .named word => r.takeNamed word t
  | .someName => r.takeSome t
  | _ => r.takeBehind t

/-- Takes the token behind an opened parenthesis. -/
def takeOpened (r : Reader) (word : Option Token) (t : Token) : Reader :=
  match t with
  | .mark ')' => r.deliver (wordedRecord r.implicitSome word []) r.frames
  | .word _ | .rawWord _ => { r with stage := .openedWord word t }
  | _ => (r.enter (.tuple []) .value).beginValue t

/-- Takes the name of a field, or the end of the record. -/
def takeField (r : Reader) (t : Token) : Reader :=
  match t.name?, r.frames with
  | some field, .record word entries _ :: around =>
    { r with stage := .colon, frames := .record word entries (some field) :: around }
  | _, _ => if t = .mark ')' then r.close ')' else r.fail

/-- Takes a token of a switch line. -/
def takeSwitch (r : Reader) (expected : Switch) (t : Token) : Reader :=
  let goOn := fun (s : Switch) => { r with stage := .switching s }
  match expected, t with
  | .bang, .mark '!' => goOn .bracket
  | .bracket, .mark '[' => goOn .keyword
  | .keyword, .word "enable" => goOn .opening
  | .opening, .mark '(' => goOn .name
  | .name, .word name | .nameOrClosing, .word name
  | .name, .rawWord name | .nameOrClosing, .rawWord name =>
    if switches.contains name then
      { r with
        stage := .switching .comma, implicitSome := r.implicitSome || name == "implicit_some" }
    else r.fail
  | .comma, .mark ',' => goOn .nameOrClosing
  | .comma, .mark ')' | .nameOrClosing, .mark ')' => goOn .closing
  | .closing, .mark ']' => { r with stage := .start }
  | _, _ => r.fail

/-- Takes one token. -/
def step (r : Reader) (t : Token) : Reader :=
  match r.stage with
  | .start => if t = .mark '#' then { r with stage := .switching .bang } else r.beginValue t
  | .switching expected => r.takeSwitch expected t
  | .value => r.beginValue t
  | .valueOrClosing => r.takeValueOrClosing t
  | .someName => r.takeSome t
  | .named word => r.takeNamed word t
  | .opened word => r.takeOpened word t
  | .openedWord before word =>
    if t = .mark ':' then r.enter (.record before [] word.name?) .value
    else ((r.enter (.tuple []) .value).beginValue word).takeBehindWord t
  | .field => r.takeField t
  | .colon => r.takeColon t
  | .delimiter => r.takeDelimiter t
  | .closing => if t = .mark ')' then r.close ')' else r.fail
  | .finished root | .surplus root => { r with stage := .surplus root }
  | .failed => r

end Reader

/-- The open value closed around what it holds when the text breaks off inside it. -/
def Frame.abandon (implicitSome : Bool) (inner : Datum) : Frame → Datum
  | .some value => (value.map fun d => .unclosed (.present d)).getD (.present inner)
  | .bareSome joined => barePresent joined inner
  | .list items => .list (items.reverse ++ [inner])
  | .tuple items => .other (items.reverse ++ [inner])
  | .record word entries field =>
    let entries := entries.reverse ++ [(field.getD "", inner)]
    wordedRecord implicitSome word entries
  | .pairs parts _ => .other (inner :: parts).reverse

/-- What a text holds. -/
structure Content where
  root : Datum
  /-- Whether the text is read to its end. -/
  complete : Bool
  implicitSome : Bool

/-- What the reader has when the tokens end. -/
def Reader.content (r : Reader) : Content :=
  match r.stage with
  | .finished root => { root, complete := true, implicitSome := r.implicitSome }
  | .surplus root => { root, complete := false, implicitSome := r.implicitSome }
  | _ => {
      root := r.frames.foldl (Frame.abandon r.implicitSome) .broken, complete := false,
      implicitSome := r.implicitSome }

/-- Reads a row of tokens. -/
def readTokens (ts : List Token) : Content := (ts.foldl Reader.step { stage := .start }).content

end MentionAlign.Ron
