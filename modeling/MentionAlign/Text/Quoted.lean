import MentionAlign.Text.Combining
import MentionAlign.Text.Printable

/-!
# Quoted text

A quoted text stands between double quotes and spells out what a reader could not see or would
misread: the quote, the backslash, the usual control characters by a letter, and unprintable or
combining characters by their code point in lower-case hexadecimal digits.
-/

namespace MentionAlign.Text

/-- Whether an apostrophe inside a quoted text is escaped too. -/
inductive Apostrophe
  | plain
  | escaped
deriving DecidableEq, Repr

/-- A character by its code point, such as `\u` with the digits in braces. -/
def codePointEscape (c : Char) : List Char :=
  '\\' :: 'u' :: '\x7b' :: Nat.toDigits 16 c.toNat ++ ['\x7d']

/-- The characters that stand for `c` inside a quoted text. -/
def escapeChar (apostrophe : Apostrophe) (c : Char) : List Char :=
  if c = '\x00' then ['\\', '0']
  else if c = '\t' then ['\\', 't']
  else if c = '\r' then ['\\', 'r']
  else if c = '\n' then ['\\', 'n']
  else if c = '"' then ['\\', '"']
  else if c = '\\' then ['\\', '\\']
  else if c = '\'' ∧ apostrophe = .escaped then ['\\', '\'']
  else if isCombining c || isUnprintable c then codePointEscape c
  else [c]

/-- The inside of a quoted text. -/
def escape (apostrophe : Apostrophe) (cs : List Char) : List Char :=
  cs.flatMap (escapeChar apostrophe)

/-- A text between double quotes. -/
def quote (apostrophe : Apostrophe) (s : String) : String :=
  String.ofList ('"' :: escape apostrophe s.toList ++ ['"'])

/-- A text as messages quote it: an apostrophe stands for itself. -/
def quoted (s : String) : String := quote .plain s

example : quoted "a\"b" = "\"a\\\"b\"" := by decide +kernel

end MentionAlign.Text
