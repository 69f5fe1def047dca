import MentionAlign.Data.Toml.Attempt
import MentionAlign.Text.Decimal

/-!
# Dates and times

A configuration text may hold dates and times: a date, a time of day, or both, then with or without
an offset from universal time.  Nothing here asks for one; they are told from broken numerals, and
shown in the way in which they are usually written.  A number and a hyphen begin a date, a number
and a colon begin a time.
-/

namespace MentionAlign.Toml.Calendar

/-- Whether a year has a 29th of February. -/
def isLeap (year : Nat) : Bool := year % 4 = 0 && (year % 100 ≠ 0 || year % 400 = 0)

/-- The number of days of a month. -/
def daysIn (year month : Nat) : Nat :=
  match month with
  | 2 => if isLeap year then 29 else 28
  | 4 | 6 | 9 | 11 => 30
  | _ => 31

/-- Takes a row of digits of the given length. -/
def digits (count : Nat) (cs : List Char) : Attempt (List Char) :=
  let taken := cs.take count
  if taken.length = count ∧ taken.all Char.isDigit then .found taken (cs.drop count) else .absent

/-- Takes two digits that lie between the bounds. -/
def twoDigits (low high : Nat) (cs : List Char) : Attempt (List Char) :=
  (digits 2 cs).andThen fun shown rest =>
    if low ≤ Text.digitsValue shown ∧ Text.digitsValue shown ≤ high then .found shown rest
    else .absent

/-- Takes a date that exists. -/
def date (cs : List Char) : Attempt (List Char) :=
  (digits 4 cs).andThen fun year cs =>
  (character '-' cs).andThen fun _ cs =>
  (twoDigits 1 12 cs).required.andThen fun month cs =>
  (character '-' cs).required.andThen fun _ cs =>
  let last := daysIn (Text.digitsValue year) (Text.digitsValue month)
  (twoDigits 1 last cs).required.map fun day => year ++ '-' :: month ++ '-' :: day

/-- Takes the part of a second behind a time, of which nine digits count. -/
def partOfSecond : List Char → Attempt (List Char)
  | '.' :: cs =>
    let shown := cs.takeWhile Char.isDigit
    let kept := ((shown.take 9).reverse.dropWhile (· = '0')).reverse
    if shown.isEmpty then .absent
    else .found (if kept.isEmpty then [] else '.' :: kept) (cs.drop shown.length)
  | _ => .absent

/-- Takes a time of day. -/
def time (cs : List Char) : Attempt (List Char) :=
  (twoDigits 0 23 cs).andThen fun hour cs =>
  (character ':' cs).andThen fun _ cs =>
  (twoDigits 0 59 cs).required.andThen fun minute cs =>
  (character ':' cs).required.andThen fun _ cs =>
  (twoDigits 0 60 cs).required.andThen fun second cs =>
  ((partOfSecond cs).orElse (.found [] cs)).map fun part =>
    hour ++ ':' :: minute ++ ':' :: second ++ part

/-- Takes an offset from universal time. -/
def offset : List Char → Attempt (List Char)
  | 'Z' :: cs | 'z' :: cs => .found ['Z'] cs
  | sign :: cs =>
    if sign = '+' ∨ sign = '-' then
      (twoDigits 0 23 cs).required.andThen fun hour cs =>
      (character ':' cs).required.andThen fun _ cs =>
      (twoDigits 0 59 cs).required.map fun minute =>
        (if (hour ++ minute).all (· = '0') then '+' else sign) :: hour ++ ':' :: minute
    else .absent
  | [] => .absent

/-- Takes the time that follows a date behind a letter or a blank. -/
def timeBehindDate : List Char → Attempt (List Char)
  | separator :: cs =>
    if separator = 'T' ∨ separator = 't' ∨ separator = ' ' then
      (time cs).andThen fun shown cs =>
      ((offset cs).orElse (.found [] cs)).map fun zone => 'T' :: shown ++ zone
    else .absent
  | [] => .absent

/-- Takes a date, a time of day, or both. -/
def moment (cs : List Char) : Attempt String :=
  let dated := (date cs).andThen fun day cs =>
    ((timeBehindDate cs).orElse (.found [] cs)).map (day ++ ·)
  (dated.orElse (time cs)).map String.ofList

end MentionAlign.Toml.Calendar
