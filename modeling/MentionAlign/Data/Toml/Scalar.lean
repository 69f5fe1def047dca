import MentionAlign.Data.Datum
import MentionAlign.Data.Toml.Calendar
import MentionAlign.Text.Digits

/-!
# Values without quotation marks

A value without quotation marks is a truth value, a number, a date or a time.  Underscores may stand
between digits.  Whole numbers fit 64 bits with a sign and begin with zero only if they are zero.
-/

namespace MentionAlign.Toml

/-- Takes more digits, each with an underscore before it or none; `taken` holds the digits so far in
reverse. -/
def moreDigits (isDigit : Char → Bool) (taken : List Char) : List Char → Attempt (List Char)
  | [] => .found taken.reverse []
  | ['_'] => .wrong
  | '_' :: c :: cs => if isDigit c then moreDigits isDigit (c :: taken) cs else .wrong
  | c :: cs =>
    if isDigit c then moreDigits isDigit (c :: taken) cs else .found taken.reverse (c :: cs)

/-- Takes a row of digits. -/
def digitRow (isDigit : Char → Bool) : List Char → Attempt (List Char)
  | [] => .absent
  | c :: cs => if isDigit c then moreDigits isDigit [c] cs else .absent

/-- Takes the decimal digits of a number behind its sign, with whether the sign is minus. -/
def decimal (cs : List Char) : Attempt (Bool × List Char) :=
  let digits : Attempt (List Char) :=
    match Text.withoutSign cs with
    | '0' :: rest => .found ['0'] rest
    | cs => digitRow Char.isDigit cs
  digits.map fun digits => (cs.head? = some '-', digits)

/-- The datum of a whole number that fits; a negative number fits nothing here. -/
def ofWhole (negative : Bool) (size : Nat) (rest : List Char) : Attempt Datum :=
  if Nat.pow 2 63 < size ∨ size = Nat.pow 2 63 ∧ !negative then .wrong
  else .found (if negative ∧ size ≠ 0 then .scalar else .natural size) rest

/-- Takes the digits of a whole number in the given base. -/
def based (base : Nat) (cs : List Char) : Attempt Datum :=
  (digitRow (fun c => (Text.digit? base c).isSome) cs).required.andThen fun digits rest =>
    match Text.valueIn? base digits with
    | some size => ofWhole false size rest
    | none => .wrong

/-- Takes a whole number. -/
def whole : List Char → Attempt Datum
  | '0' :: 'x' :: cs => based 16 cs
  | '0' :: 'o' :: cs => based 8 cs
  | '0' :: 'b' :: cs => based 2 cs
  | cs => (decimal cs).andThen fun (negative, digits) rest =>
      ofWhole negative (Text.digitsValue digits) rest

/-- A number with a fraction or an exponent: its digits in a row, the number of those behind the
point, and its exponent. -/
structure Fraction where
  digits : List Char
  places : Nat := 0
  exponent : Int := 0

/-- Takes an exponent: a letter, an optional sign and digits. -/
def exponent : List Char → Attempt Int
  | [] => .absent
  | c :: cs =>
    if c = 'e' ∨ c = 'E' then
      (digitRow Char.isDigit (Text.withoutSign cs)).required.map fun digits =>
        if cs.head? = some '-' then -(Text.digitsValue digits : Int) else Text.digitsValue digits
    else .absent

/-- Takes the digits behind a point. -/
def places : List Char → Attempt (List Char)
  | '.' :: cs => (digitRow Char.isDigit cs).required
  | _ => .absent

/-- From here on a number is nearer to infinity than to the largest number of 64 bits. -/
def overflowBound : Nat := Nat.pow 2 1024 - Nat.pow 2 970

/-- Whether a number is too large for 64 bits. -/
def Fraction.overflows (f : Fraction) : Bool :=
  let size := Text.digitsValue f.digits
  let scale := f.exponent - f.places
  let magnitude := (Nat.toDigits 10 size).length + scale
  if size = 0 then false
  else if 320 < magnitude then true
  else if magnitude < 300 then false
  else overflowBound * Nat.pow 10 (-scale).toNat ≤ size * Nat.pow 10 scale.toNat

/-- Takes a number with a fraction, an exponent or both; a positive one has to fit 64 bits. -/
def fraction (cs : List Char) : Attempt Datum :=
  (decimal cs).andThen fun (negative, digits) cs =>
  let scaled := fun (f : Fraction) cs => (exponent cs).map fun e => { f with exponent := e }
  let behindPoint := (places cs).andThen fun behind cs =>
    let f : Fraction := { digits := digits ++ behind, places := behind.length }
    (scaled f cs).orElse (.found f cs)
  ((scaled { digits } cs).orElse behindPoint).andThen fun f rest =>
    if f.overflows && !negative then .wrong else .found .scalar rest

/-- Takes an infinity or an undefined number. -/
def unbounded (cs : List Char) : Attempt Datum :=
  let cs := Text.withoutSign cs
  (literal "inf" .scalar cs).orElse (literal "nan" .scalar cs)

/-- Takes a value without quotation marks. -/
def scalar (cs : List Char) : Attempt Datum :=
  match cs with
  | 't' :: _ => (literal "true" (.boolean true) cs).required
  | 'f' :: _ => (literal "false" (.boolean false) cs).required
  | _ => (((Calendar.moment cs).map .moment).orElse (fraction cs)).orElse
      ((unbounded cs).orElse (whole cs))

end MentionAlign.Toml
