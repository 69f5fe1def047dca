import MentionAlign.InputError
import MentionAlign.Text.Decimal

/-!
# Spans

A span is a closed range of character offsets, both ends included, that may carry the covered text
for diagnosis.  The test `==` looks at the offsets alone, so a span read from one source agrees
with the same span read from another whatever text either carries; `=` also compares the text.
-/

namespace MentionAlign

/-- A closed range of character offsets with optional text. -/
structure Span where
  start : Nat
  stop : Nat
  text : Option String := none
  start_le_stop : start ≤ stop := by omega
deriving Repr

namespace Span

/-- The span with the given ends, refused when the start lies after the end. -/
def ofOffsets (start stop : Nat) (text : Option String := none) : Except InputError Span :=
  if h : start ≤ stop then .ok { start, stop, text, start_le_stop := h }
  else .error (.invalidSpan start stop)

/-- Two spans agree when their offsets do. -/
instance : BEq Span where
  beq a b := a.start == b.start && a.stop == b.stop

/-- The number of covered offsets, cut off at the largest 64-bit number. -/
def length (s : Span) : Nat := min (s.stop - s.start + 1) (Text.offsetBound - 1)

/-- Whether `other` lies within the span; a span encloses itself. -/
def encloses (s other : Span) : Bool := s.start ≤ other.start && other.stop ≤ s.stop

/-- The same offsets without text. -/
def offsetsOnly (s : Span) : Span := { s with text := none }

/-- Both offsets fit 64 bits. -/
def InRange (s : Span) : Prop := s.stop < Text.offsetBound

theorem beq_iff {a b : Span} : (a == b) = true ↔ a.start = b.start ∧ a.stop = b.stop := by
  simp [BEq.beq]

theorem encloses_iff {a b : Span} :
    a.encloses b = true ↔ a.start ≤ b.start ∧ b.stop ≤ a.stop := by
  simp [encloses]

theorem eq_iff {a b : Span} : a = b ↔ a.start = b.start ∧ a.stop = b.stop ∧ a.text = b.text := by
  cases a; cases b; simp

/-- Offsets are accepted exactly when they are in order. -/
theorem ofOffsets_eq_ok_iff {start stop : Nat} {text : Option String} {s : Span} :
    ofOffsets start stop text = .ok s ↔ s.start = start ∧ s.stop = stop ∧ s.text = text := by
  unfold ofOffsets
  split
  · rw [Except.ok.injEq, eq_iff]; grind
  · next h => simp only [reduceCtorEq, false_iff]; rintro ⟨rfl, rfl, -⟩; exact h s.start_le_stop

/-- Offsets are refused exactly when they are out of order, and then with themselves. -/
theorem ofOffsets_eq_error_iff {start stop : Nat} {text : Option String} {e : InputError} :
    ofOffsets start stop text = .error e ↔ e = .invalidSpan start stop ∧ stop < start := by
  unfold ofOffsets
  split <;> grind

end Span

end MentionAlign
