/-!
# Reading at the beginning of characters

A value without quotation marks ends where its characters do not go on, and what stands behind it is
the business of the reader around it.  A value that has begun in a way that only one kind of value
can begin is wrong if it cannot be completed; otherwise another kind may be tried.
-/

namespace MentionAlign.Toml

/-- What reading a value at the beginning of characters comes to. -/
inductive Attempt (α : Type)
  /-- No such value begins here. -/
  | absent
  /-- Such a value begins here and cannot be completed. -/
  | wrong
  /-- The value, and the characters behind it. -/
  | found (value : α) (rest : List Char)
deriving Repr

namespace Attempt

variable {α β : Type}

/-- Goes on behind a value. -/
def andThen (a : Attempt α) (next : α → List Char → Attempt β) : Attempt β :=
  match a with
  | absent => absent
  | wrong => wrong
  | found value rest => next value rest

/-- Changes the value. -/
def map (f : α → β) (a : Attempt α) : Attempt β := a.andThen fun value rest => found (f value) rest

/-- Tries something else where no such value begins. -/
def orElse (a other : Attempt α) : Attempt α :=
  match a with
  | absent => other
  | wrong => wrong
  | found value rest => found value rest

/-- A value that has to be there. -/
def required (a : Attempt α) : Attempt α := a.orElse wrong

end Attempt

/-- Takes the given character. -/
def character (c : Char) : List Char → Attempt Unit
  | d :: rest => if c = d then .found () rest else .absent
  | [] => .absent

/-- Takes the given word, which stands for a value. -/
def literal {α : Type} (word : String) (value : α) (cs : List Char) : Attempt α :=
  if word.toList.isPrefixOf cs then .found value (cs.drop word.length) else .absent

end MentionAlign.Toml
