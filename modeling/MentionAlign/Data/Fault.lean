import MentionAlign.InputError

/-!
# Faults of structured data

Reading structured data into a record can fail for few reasons.  A fault names the reason and, for
data that comes from a text with lines, the line that the reader should look at.
-/

namespace MentionAlign

/-- Why structured data is refused. -/
inductive Cause
  | missingField (name : String)
  | unknownField (name : String) (expected : List String)
  | duplicateField (name : String)
  | unknownVariant (name : String) (expected : List String)
  | invalidSpan (start stop : Nat)
  /-- The value has another shape than the one asked for, or its text cannot be read. -/
  | mismatch
deriving DecidableEq, Repr

/-- The names that would have been right, in the wording of messages. -/
def expectedNames : List String → String
  | [] => "there are none"
  | [a] => "expected `" ++ a ++ "`"
  | [a, b] => "expected `" ++ a ++ "` or `" ++ b ++ "`"
  | names => "expected one of " ++ ", ".intercalate (names.map fun n => "`" ++ n ++ "`")

/-- The wording of a cause, where it has a fixed one. -/
def Cause.message? : Cause → Option String
  | .missingField name => some ("missing field `" ++ name ++ "`")
  | .unknownField name expected =>
    some ("unknown field `" ++ name ++ "`, " ++ expectedNames expected)
  | .duplicateField name => some ("duplicate field `" ++ name ++ "`")
  | .unknownVariant name expected =>
    some ("unknown variant `" ++ name ++ "`, " ++ expectedNames expected)
  | .invalidSpan start stop => some (InputError.invalidSpan start stop).message
  | .mismatch => none

/-- A cause with the line of the source text that it belongs to, where that is known. -/
structure Fault where
  cause : Cause
  line : Option Nat := none
deriving DecidableEq, Repr

namespace Fault

/-- A value of another shape than the one asked for. -/
def mismatch : Fault := { cause := .mismatch }

/-- The wording of a fault, where it has a fixed one. -/
def message? (f : Fault) : Option String := f.cause.message?

/-- The fault with a line, unless it has one already. -/
def locate (line : Nat) (f : Fault) : Fault := { f with line := some (f.line.getD line) }

end Fault

/-- Gives a line to the fault of a failed reading, unless it has one already. -/
def atLine {α : Type} (line : Nat) (r : Except Fault α) : Except Fault α :=
  r.mapError (Fault.locate line)

end MentionAlign
