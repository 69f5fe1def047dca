import MentionAlign.Tree.Lexeme
import MentionAlign.Tree.Node

/-!
# Bracketed trees

A tree is written `(LABEL word)` or `(LABEL tree tree ...)`; a star behind a label marks the head
child of the phrase around it.  Words carry no offsets: they are located in the document text from
left to right, each at the first place behind the word before it.

The reader takes one lexeme at a time.  Its stage holds the phrases that are still open, so what it
has read can be written back from the stage alone.
-/

namespace MentionAlign

namespace Text

/-- The offset of the first occurrence of `word` in a text that starts at `offset`. -/
def findFrom (word : List Char) (offset : Nat) : List Char → Option Nat
  | [] => if word.isEmpty then some offset else none
  | c :: cs => if word.isPrefixOf (c :: cs) then some offset else findFrom word (offset + 1) cs

end Text

namespace Bracketed

/-- A phrase that is still open. -/
structure Frame where
  label : String
  /-- Whether the phrase is the head child of the phrase around it. -/
  starred : Bool
  children : List Node := []
  head : Option Nat := none

/-- How far the reader has come. -/
inductive Stage
  /-- Nothing has been read. -/
  | start
  /-- A parenthesis has been opened inside the given phrases. -/
  | opened (around : List Frame)
  /-- The innermost open phrase has its label and perhaps children. -/
  | inside (frame : Frame) (around : List Frame)
  /-- A terminal has its label and its word. -/
  | worded (label : String) (starred : Bool) (token : Token) (around : List Frame)
  /-- The phrase with the given label has got a second head. -/
  | crowded (label : String)
  /-- The whole tree has been read. -/
  | finished (root : Node)

/-- The reader: its stage and the character offset behind the last word. -/
structure Reader where
  stage : Stage
  cursor : Nat

/-- The label that a word spells, and whether it is starred. -/
def splitLabel (word : List Char) : String × Bool :=
  if word.getLast? = some '*' then (String.ofList word.dropLast, true)
  else (String.ofList word, false)

/-- Locates a word in the text at or behind `cursor`. -/
def locate (text : List Char) (cursor : Nat) (word : List Char) : Except TreeError Token :=
  match Text.findFrom word cursor (text.drop cursor) with
  | some start => .ok {
      text := String.ofList word
      span := { start, stop := start + (word.length - 1), start_le_stop := Nat.le_add_right .. } }
  | none => .error (.wordNotFound (String.ofList word) cursor)

/-- Hands a finished node to the phrase around it. -/
def close (node : Node) (starred : Bool) : List Frame → Stage
  | [] => .finished node
  | frame :: around =>
    if starred then
      if frame.head.isSome then .crowded frame.label
      else .inside { frame with
        children := frame.children ++ [node], head := some frame.children.length } around
    else .inside { frame with children := frame.children ++ [node] } around

/-- Takes one lexeme. -/
def Reader.step (text : List Char) (r : Reader) (l : Lexeme) : Except TreeError Reader :=
  let refuse := fun fault => .error (.malformed l.position fault)
  match r.stage, l.kind with
  | .start, .opening => .ok { r with stage := .opened [] }
  | .start, _ => refuse .expectedOpening
  | .opened around, .word w =>
    let (label, starred) := splitLabel w
    .ok { r with stage := .inside { label, starred } around }
  | .opened _, _ => refuse .expectedLabel
  | .inside frame around, .opening => .ok { r with stage := .opened (frame :: around) }
  | .inside frame around, .closing =>
    (Node.phrase frame.label frame.children frame.head).map fun node =>
      { r with stage := close node frame.starred around }
  | .inside frame around, .word w =>
    if frame.children.isEmpty then
      (locate text r.cursor w).map fun token =>
        { stage := .worded frame.label frame.starred token around, cursor := token.span.stop + 1 }
    else refuse .expectedClosing
  | .worded label starred token around, .closing =>
    .ok { r with stage := close (Node.terminal label token) starred around }
  | .worded .., _ => refuse .expectedClosing
  | .crowded label, _ => refuse (.severalHeads label)
  | .finished _, _ => refuse .trailingInput

/-- The tree when the input ends; `position` is where the last lexeme starts. -/
def Stage.result (position : Nat) : Stage → Except TreeError Node
  | .finished root => .ok root
  | .start => .error (.malformed position .expectedOpening)
  | .opened _ => .error (.malformed position .expectedLabel)
  | .inside .. | .worded .. => .error (.malformed position .expectedClosing)
  | .crowded label => .error (.malformed position (.severalHeads label))

/-- Reads a row of lexemes as one tree over the text, words at or behind `cursor`. -/
def readLexemes (lexemes : List Lexeme) (text : List Char) (cursor : Nat) :
    Except TreeError (Node × Nat) := do
  let r ← lexemes.foldlM (Reader.step text) { stage := .start, cursor }
  let root ← r.stage.result ((lexemes.getLast?.map Lexeme.position).getD 0)
  return (root, r.cursor)

/-- Reads one bracketed tree over the text, words at or behind `cursor`; also gives the offset
behind the last word. -/
def parse (tree : String) (text : List Char) (cursor : Nat := 0) :
    Except TreeError (Node × Nat) :=
  readLexemes (Lexeme.scan tree.toList) text cursor

end Bracketed

end MentionAlign
