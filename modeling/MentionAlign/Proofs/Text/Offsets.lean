import Mathlib.Data.List.Induction
import MentionAlign.Proofs.Text.Numerals
import MentionAlign.Text.Decimal

/-!
# Numerals of offsets

`Denotes` says what a row of decimal digits stands for: a digit for itself, and a row with one more
digit behind it for ten times as much and the digit.  An offset may be written with a plus sign in
front of its digits and with leading zeros, and has to lie below the bound.  The reader of offsets
accepts these numerals and no others, and among them are those that numbers are printed as.
-/

namespace MentionAlign.Text

variable {cs : List Char} {n : Nat}

/-- The row of decimal digits stands for the number. -/
inductive Denotes : List Char → Nat → Prop
  | single {d : Nat} (hd : d < 10) : Denotes [Nat.digitChar d] d
  | more {cs : List Char} {n d : Nat} (front : Denotes cs n) (hd : d < 10) :
      Denotes (cs ++ [Nat.digitChar d]) (10 * n + d)

/-- The numeral stands for the offset: digits for a number below the bound, behind a plus sign or
not. -/
def WritesOffset (cs : List Char) (n : Nat) : Prop :=
  (∃ digits, (cs = digits ∨ cs = '+' :: digits) ∧ Denotes digits n) ∧ n < offsetBound

/-- A number is printed as digits that stand for it. -/
theorem denotes_toDigits (n : Nat) : Denotes (Nat.toDigits 10 n) n :=
  toDigits_induction (by decide) (fun _ => .single) (fun _ _ front _ => front.more) n

/-- A digit stands for a value below ten. -/
theorem exists_digitChar_of_isDigit {c : Char} (h : c.isDigit = true) :
    ∃ d < 10, c = Nat.digitChar d ∧ c.toNat - '0'.toNat = d := by
  obtain ⟨hlow, hhigh⟩ : 48 ≤ c.toNat ∧ c.toNat ≤ 57 := Char.isDigit_iff_toNat.mp h
  refine ⟨c.toNat - 48, by omega, Char.toNat_inj.mp ?_, rfl⟩
  rw [Nat.toNat_digitChar_of_lt_ten (by omega)]
  omega

/-- One more digit moves the value up by one place. -/
theorem digitsValue_append_singleton (cs : List Char) (c : Char) :
    digitsValue (cs ++ [c]) = 10 * digitsValue cs + (c.toNat - '0'.toNat) := by
  rw [digitsValue, List.foldl_append]
  rfl

/-- The rows that stand for a number are the non-empty rows of digits, and they stand for their
value. -/
theorem denotes_iff :
    Denotes cs n ↔ cs ≠ [] ∧ (∀ c ∈ cs, c.isDigit = true) ∧ digitsValue cs = n := by
  constructor
  · intro h
    induction h with
    | single hd =>
        refine ⟨by simp, by simp [Nat.isDigit_digitChar, hd], ?_⟩
        simp [digitsValue, Nat.toNat_digitChar_of_lt_ten hd]
    | @more cs n d front hd ih =>
        obtain ⟨-, hdigits, rfl⟩ := ih
        have hlast : (Nat.digitChar d).toNat - '0'.toNat = d := by
          rw [Nat.toNat_digitChar_of_lt_ten hd]
          exact Nat.add_sub_cancel_left 48 d
        refine ⟨by simp, List.forall_mem_append.mpr ⟨hdigits, ?_⟩, ?_⟩
        · simp [Nat.isDigit_digitChar, hd]
        · rw [digitsValue_append_singleton, hlast]
  · rintro ⟨hne, hdigits, rfl⟩
    -- the last digit comes off first, as it is written last
    induction cs using List.reverseRecOn with
    | nil => exact absurd rfl hne
    | append_singleton cs c ih =>
        obtain ⟨hfront, hlast⟩ := List.forall_mem_append.mp hdigits
        obtain ⟨d, hd, rfl, hvalue⟩ := exists_digitChar_of_isDigit (hlast c List.mem_cons_self)
        rw [digitsValue_append_singleton, hvalue]
        by_cases hcs : cs = []
        · subst hcs
          simpa [digitsValue] using Denotes.single hd
        · exact (ih hcs hfront).more hd

/-- A row of digits has no sign to drop. -/
theorem Denotes.unsigned_eq (h : Denotes cs n) : unsigned cs = cs := by
  obtain ⟨-, hdigits, -⟩ := denotes_iff.mp h
  unfold unsigned
  split
  · exact absurd (hdigits '+' List.mem_cons_self) (by decide)
  · rfl

/-- A numeral is what is left of it without its sign, or that behind the sign. -/
theorem eq_or_eq_cons_unsigned (cs : List Char) : cs = unsigned cs ∨ cs = '+' :: unsigned cs := by
  unfold unsigned
  split
  · exact .inr rfl
  · exact .inl rfl

/-- **The reader of offsets.**  An offset is read from the numerals that stand for it, and from
nothing else. -/
theorem readOffset_eq_some_iff : readOffset cs = some n ↔ WritesOffset cs n := by
  have hvalue : readOffset cs = some n ↔ Denotes (unsigned cs) n ∧ n < offsetBound := by
    rw [readOffset, denotes_iff]
    simp only [List.all_eq_true, Option.ite_none_right_eq_some, Option.some.injEq]
    grind
  rw [hvalue, WritesOffset]
  refine and_congr_left fun _ => ⟨fun h => ⟨_, eq_or_eq_cons_unsigned cs, h⟩, ?_⟩
  rintro ⟨digits, rfl | rfl, hdigits⟩
  · rwa [hdigits.unsigned_eq]
  · exact hdigits

end MentionAlign.Text
