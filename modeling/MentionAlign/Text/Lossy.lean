/-!
# Bytes shown as text

Bytes that are not those of a text can be shown all the same.  The bytes of each character show the
character.  Where a character breaks off, its bytes up to there show one replacement character, and
so does a byte with which no character begins.
-/

namespace MentionAlign.Text

/-- The bytes of a text. -/
def bytes (s : String) : List UInt8 := s.toList.flatMap String.utf8EncodeChar

/-- What stands for bytes that show no character. -/
def replacement : Char := '\uFFFD'

/-- The first bytes of a character: the code that their digits make, and the bounds of the byte that
has to come next and of those behind it. -/
structure Opened where
  code : Nat
  next : Nat × Nat
  later : List (Nat × Nat) := []
deriving DecidableEq, Repr

/-- The bounds of a byte inside a character where nothing narrower is known. -/
def anyInner : Nat × Nat := (0x80, 0xBF)

/-- The bounds of the second of three bytes: no character is written longer than it has to be, and
surrogates are no characters. -/
def secondOfThree (first : Nat) : Nat × Nat :=
  if first = 0xE0 then (0xA0, 0xBF) else if first = 0xED then (0x80, 0x9F) else anyInner

/-- The bounds of the second of four bytes: no character is written longer than it has to be, and
the last plane ends the characters. -/
def secondOfFour (first : Nat) : Nat × Nat :=
  if first = 0xF0 then (0x90, 0xBF) else if first = 0xF4 then (0x80, 0x8F) else anyInner

/-- The character that a byte opens. -/
def opened? (b : Nat) : Option Opened :=
  if b < 0xC2 then none
  else if b < 0xE0 then some { code := b % 32, next := anyInner }
  else if b < 0xF0 then some { code := b % 16, next := secondOfThree b, later := [anyInner] }
  else if b < 0xF5 then
    some { code := b % 8, next := secondOfFour b, later := [anyInner, anyInner] }
  else none

/-- Takes a byte outside of a character, and gives what it shows at once. -/
def takeOutside (b : Nat) : List Char × Option Opened :=
  if b < 0x80 then ([Char.ofNat b], none)
  else match opened? b with
    | some o => ([], some o)
    | none => ([replacement], none)

/-- Takes a byte inside of a character; one that cannot stand there breaks the character off. -/
def takeInside (o : Opened) (b : Nat) : List Char × Option Opened :=
  if o.next.1 ≤ b ∧ b ≤ o.next.2 then
    match o.later with
    | [] => ([Char.ofNat (64 * o.code + b % 64)], none)
    | next :: later => ([], some { code := 64 * o.code + b % 64, next, later })
  else
    let (shown, opened) := takeOutside b
    (replacement :: shown, opened)

/-- Takes a byte. -/
def take : Option Opened → Nat → List Char × Option Opened
  | none, b => takeOutside b
  | some o, b => takeInside o b

/-- The characters that bytes show, outside of a character or inside of one. -/
def shownFrom (o : Option Opened) : List Nat → List Char
  | [] => if o.isSome then [replacement] else []
  | b :: bs => (take o b).1 ++ shownFrom (take o b).2 bs

/-- The text that shows bytes. -/
def shown (bs : List UInt8) : String := String.ofList (shownFrom none (bs.map UInt8.toNat))

end MentionAlign.Text
