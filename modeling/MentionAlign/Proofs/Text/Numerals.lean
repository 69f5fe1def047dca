import MentionAlign.Text.Digits

/-!
# Numerals have a value

Writing a number in a base and taking the value of the digits gives the number back.
-/

namespace MentionAlign.Text

variable {base : Nat}

/-- The digit of a value below sixteen has that value. -/
theorem hexDigit?_digitChar : ∀ d < 16, hexDigit? (Nat.digitChar d) = some d := by decide

/-- The digit of a value below the base has that value in the base. -/
theorem digit?_digitChar (hbase : base ≤ 16) {d : Nat} (hd : d < base) :
    digit? base (Nat.digitChar d) = some d := by
  rw [digit?, hexDigit?_digitChar d (Nat.lt_of_lt_of_le hd hbase)]
  simpa using hd

/-- One more digit behind a row moves the value up by one place. -/
theorem valueIn?_append_singleton (base : Nat) (cs : List Char) (c : Char) :
    valueIn? base (cs ++ [c]) =
      (valueIn? base cs).bind fun n => (digit? base c).map (base * n + ·) := by
  rw [valueIn?, List.foldlM_append]
  cases hcs : valueIn? base cs <;> rw [valueIn?] at hcs <;> simp [hcs]

/-- What holds of a single digit and is kept by one more digit holds of every numeral. -/
theorem toDigits_induction (hlow : 1 < base) {motive : List Char → Nat → Prop}
    (single : ∀ d < base, motive [Nat.digitChar d] d)
    (more : ∀ cs n, motive cs n → ∀ d < base, motive (cs ++ [Nat.digitChar d]) (base * n + d))
    (n : Nat) : motive (Nat.toDigits base n) n := by
  induction n using Nat.strongRecOn with
  | ind n ih =>
      by_cases hn : n < base
      · rw [Nat.toDigits_of_lt_base hn]
        exact single n hn
      · have hquotient : n / base < n := Nat.div_lt_self (by omega) hlow
        have hlast : n % base < base := Nat.mod_lt n (by omega)
        have hmore := more _ _ (ih _ hquotient) (n % base) hlast
        rwa [← Nat.toDigits_of_base_le hlow (by omega), Nat.div_add_mod] at hmore

/-- A number is printed in decimal digits. -/
theorem isDigit_of_mem_toDigits {c : Char} {n : Nat} (h : c ∈ Nat.toDigits 10 n) :
    c.isDigit = true :=
  Nat.isDigit_of_mem_toDigits (by decide) (by decide) h

/-- **Numerals are read back.**  The digits of a number have that number as their value. -/
theorem valueIn?_toDigits (hlow : 1 < base) (hbase : base ≤ 16) (n : Nat) :
    valueIn? base (Nat.toDigits base n) = some n := by
  refine toDigits_induction hlow (motive := fun cs n => valueIn? base cs = some n) ?_ ?_ n
  · intro d hd
    rw [← List.nil_append [d.digitChar], valueIn?_append_singleton, digit?_digitChar hbase hd]
    simp [valueIn?]
  · intro cs n hcs d hd
    rw [valueIn?_append_singleton, hcs, digit?_digitChar hbase hd]
    rfl

end MentionAlign.Text
