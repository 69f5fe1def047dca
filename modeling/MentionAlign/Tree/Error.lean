import MentionAlign.InputError

/-!
# Faults of parse trees

A bracketed tree may break the notation, name a word that the text does not hold, or describe a
phrase that cannot stand.
-/

namespace MentionAlign

/-- Where a bracketed tree breaks the notation. -/
inductive BracketFault
  | expectedOpening
  | expectedLabel
  | expectedClosing
  /-- A phrase with two starred children. -/
  | severalHeads (label : String)
  | trailingInput
deriving DecidableEq, Repr

/-- The wording of a notation fault. -/
def BracketFault.message : BracketFault → String
  | .expectedOpening => "expected '('"
  | .expectedLabel => "expected a label"
  | .expectedClosing => "expected ')'"
  | .severalHeads label => label ++ " has more than one head"
  | .trailingInput => "unexpected input after tree"

/-- Why a phrase cannot stand. -/
inductive PhraseFault
  | noChildren
  | headOutOfRange (index count : Nat)
deriving DecidableEq, Repr

/-- The wording of a phrase fault. -/
def PhraseFault.message : PhraseFault → String
  | .noChildren => "no children"
  | .headOutOfRange index count => "head child " ++ toString index ++ " of " ++ toString count

/-- Why a parse tree is refused. -/
inductive TreeError
  /-- The notation breaks at a byte position of the tree. -/
  | malformed (position : Nat) (fault : BracketFault)
  /-- A word that does not occur in the text from the given character offset on. -/
  | wordNotFound (word : String) (offset : Nat)
  | invalidPhrase (label : String) (fault : PhraseFault)
  | input (error : InputError)
deriving DecidableEq, Repr

/-- The wording of a tree error. -/
def TreeError.message : TreeError → String
  | .malformed position fault =>
    "tree syntax error at position " ++ toString position ++ ": " ++ fault.message
  | .wordNotFound word offset =>
    "token " ++ Text.quoted word ++ " not found in text after offset " ++ toString offset
  | .invalidPhrase label fault => "invalid constituent " ++ label ++ ": " ++ fault.message
  | .input error => error.message

end MentionAlign
