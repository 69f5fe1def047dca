/-!
# Decimal numerals

Offsets are written in decimal digits and read back up to a bound: a reader of offsets accepts an
optional plus sign and at least one digit, and refuses a value that does not fit 64 bits.
-/

namespace MentionAlign.Text

/-- Offsets and positions in a list lie below this bound. -/
def offsetBound : Nat := Nat.pow 2 64

/-- The value of a run of decimal digits. -/
def digitsValue (cs : List Char) : Nat :=
  cs.foldl (fun n c => 10 * n + (c.toNat - '0'.toNat)) 0

/-- The numeral without its optional plus sign. -/
def unsigned : List Char → List Char
  | '+' :: cs => cs
  | cs => cs

/-- The offset that a numeral denotes: an optional plus sign, then at least one digit, and a value
below `offsetBound`.  Leading zeros are allowed. -/
def readOffset (cs : List Char) : Option Nat :=
  let digits := unsigned cs
  if digits ≠ [] ∧ digits.all Char.isDigit ∧ digitsValue digits < offsetBound then
    some (digitsValue digits)
  else none

end MentionAlign.Text
