import MentionAlign.Text.Lossy

/-!
# Bytes of texts are shown as the texts

The bytes of a character open it, stay within the bounds of the bytes to come and close it, so they
show that character and nothing is left open (`shownFrom_encodeChar`).  So the bytes of a text show
the text (`shown_bytes`), and only names that are no texts can be shown alike.
-/

namespace MentionAlign.Text

/-- The bytes of two texts behind each other. -/
theorem bytes_append (s t : String) : bytes (s ++ t) = bytes s ++ bytes t := by
  rw [bytes, String.toList_append, List.flatMap_append]
  rfl

/-- The bytes of texts with a separator between each one and the next. -/
theorem bytes_intercalate (separator : String) (parts : List String) :
    bytes (separator.intercalate parts) = (bytes separator).intercalate (parts.map bytes) := by
  induction parts with
  | nil => rfl
  | cons part rest ih =>
      cases rest with
      | nil => simp
      | cons next rest =>
          have hne : (next :: rest).map bytes ≠ [] := by simp
          rw [String.intercalate_cons_cons, bytes_append, bytes_append, ih]
          exact (List.intercalate_cons_of_ne_nil hne).symm

section Bytes

variable {b : Nat} {bs : List Nat}

/-- A byte below 128 is a character. -/
theorem shownFrom_ascii (h : b < 0x80) :
    shownFrom none (b :: bs) = Char.ofNat b :: shownFrom none bs := by
  rw [shownFrom, take, takeOutside, if_pos h]
  rfl

/-- A byte that opens a character shows nothing yet. -/
theorem shownFrom_opening {o : Opened} (h : opened? b = some o) :
    shownFrom none (b :: bs) = shownFrom (some o) bs := by
  have hb : ¬ b < 0x80 := by
    intro hlow
    rw [opened?, if_pos (by omega)] at h
    cases h
  rw [shownFrom, take, takeOutside, if_neg hb, h]
  rfl

/-- A byte within its bounds, with more to come, shows nothing yet. -/
theorem shownFrom_inner {code : Nat} {bounds next : Nat × Nat} {later : List (Nat × Nat)}
    (h : bounds.1 ≤ b ∧ b ≤ bounds.2) :
    shownFrom (some { code, next := bounds, later := next :: later }) (b :: bs) =
      shownFrom (some { code := 64 * code + b % 64, next, later }) bs := by
  rw [shownFrom, take, takeInside, if_pos h]
  rfl

/-- The last byte of a character, within its bounds, shows the character. -/
theorem shownFrom_last {code : Nat} {bounds : Nat × Nat} (h : bounds.1 ≤ b ∧ b ≤ bounds.2) :
    shownFrom (some { code, next := bounds }) (b :: bs) =
      Char.ofNat (64 * code + b % 64) :: shownFrom none bs := by
  rw [shownFrom, take, takeInside, if_pos h]
  rfl

/-- Six bits of a code make a byte that may stand inside of a character. -/
theorem within_anyInner (n : Nat) :
    anyInner.1 ≤ n % 0x40 + 0x80 ∧ n % 0x40 + 0x80 ≤ anyInner.2 := by
  simp only [anyInner]
  omega

/-- The second of three bytes is within its bounds if the code is that of a character which needs
three bytes. -/
theorem within_secondOfThree {v : Nat} (hlong : 0x7FF < v) (hshort : v ≤ 0xFFFF)
    (hvalid : v < 0xD800 ∨ 0xDFFF < v) :
    (secondOfThree (v / 4096 % 0x10 + 0xE0)).1 ≤ v / 64 % 0x40 + 0x80 ∧
      v / 64 % 0x40 + 0x80 ≤ (secondOfThree (v / 4096 % 0x10 + 0xE0)).2 := by
  unfold secondOfThree
  split
  · dsimp only
    omega
  · split
    · dsimp only
      omega
    · exact within_anyInner _

/-- The second of four bytes is within its bounds if the code is that of a character which needs
four bytes. -/
theorem within_secondOfFour {v : Nat} (hlong : 0xFFFF < v) (hvalid : v < 0x110000) :
    (secondOfFour (v / 262144 % 0x08 + 0xF0)).1 ≤ v / 4096 % 0x40 + 0x80 ∧
      v / 4096 % 0x40 + 0x80 ≤ (secondOfFour (v / 262144 % 0x08 + 0xF0)).2 := by
  unfold secondOfFour
  split
  · dsimp only
    omega
  · split
    · dsimp only
      omega
    · exact within_anyInner _

end Bytes

/-- **The bytes of a character show the character.** -/
theorem shownFrom_encodeChar (c : Char) (bs : List Nat) :
    shownFrom none ((String.utf8EncodeChar c).map UInt8.toNat ++ bs) = c :: shownFrom none bs := by
  have hvalid : c.toNat < 0xD800 ∨ 0xDFFF < c.toNat ∧ c.toNat < 0x110000 := c.valid
  have hbyte : ∀ n < 256, (UInt8.ofNat n).toNat = n := fun n hn => by
    rw [UInt8.toNat_ofNat']
    omega
  have hcode : ∀ n, n = c.toNat → Char.ofNat n = c := fun n hn => hn ▸ Char.ofNat_toNat c
  have hv : c.val.toNat = c.toNat := rfl
  rw [String.utf8EncodeChar, hv]
  by_cases hone : c.toNat ≤ 0x7F
  · rw [if_pos hone, List.map_singleton, hbyte _ (by omega), List.singleton_append,
      shownFrom_ascii (by omega), hcode _ rfl]
  by_cases htwo : c.toNat ≤ 0x7FF
  · have hopened : opened? (c.toNat / 64 % 0x20 + 0xC0) =
        some { code := (c.toNat / 64 % 0x20 + 0xC0) % 32, next := anyInner } := by
      rw [opened?, if_neg (by omega), if_pos (by omega)]
    rw [if_neg hone, if_pos htwo, List.map_cons, List.map_singleton, hbyte _ (by omega),
      hbyte _ (by omega), List.cons_append, List.singleton_append, shownFrom_opening hopened,
      shownFrom_last (within_anyInner _), hcode _ (by omega)]
  by_cases hthree : c.toNat ≤ 0xFFFF
  · have hopened : opened? (c.toNat / 4096 % 0x10 + 0xE0) =
        some {
          code := (c.toNat / 4096 % 0x10 + 0xE0) % 16
          next := secondOfThree (c.toNat / 4096 % 0x10 + 0xE0), later := [anyInner] } := by
      rw [opened?, if_neg (by omega), if_neg (by omega), if_pos (by omega)]
    have hsecond := within_secondOfThree (v := c.toNat) (by omega) hthree (by omega)
    rw [if_neg hone, if_neg htwo, if_pos hthree]
    simp only [List.map_cons, List.map_nil, List.cons_append, List.nil_append]
    rw [hbyte _ (by omega), hbyte _ (by omega), hbyte _ (by omega), shownFrom_opening hopened,
      shownFrom_inner hsecond, shownFrom_last (within_anyInner _), hcode _ (by omega)]
  · have hopened : opened? (c.toNat / 262144 % 0x08 + 0xF0) =
        some {
          code := (c.toNat / 262144 % 0x08 + 0xF0) % 8
          next := secondOfFour (c.toNat / 262144 % 0x08 + 0xF0)
          later := [anyInner, anyInner] } := by
      rw [opened?, if_neg (by omega), if_neg (by omega), if_neg (by omega), if_pos (by omega)]
    have hsecond := within_secondOfFour (v := c.toNat) (by omega) (by omega)
    rw [if_neg hone, if_neg htwo, if_neg hthree]
    simp only [List.map_cons, List.map_nil, List.cons_append, List.nil_append]
    rw [hbyte _ (by omega), hbyte _ (by omega), hbyte _ (by omega), hbyte _ (by omega),
      shownFrom_opening hopened, shownFrom_inner hsecond, shownFrom_inner (within_anyInner _),
      shownFrom_last (within_anyInner _), hcode _ (by omega)]

/-- **The bytes of a text show the text.** -/
theorem shown_bytes (s : String) : shown (bytes s) = s := by
  have hchars : ∀ cs : List Char,
      shownFrom none ((cs.flatMap String.utf8EncodeChar).map UInt8.toNat) = cs := by
    intro cs
    induction cs with
    | nil => rfl
    | cons c cs ih => rw [List.flatMap_cons, List.map_append, shownFrom_encodeChar, ih]
  rw [shown, bytes, hchars, String.ofList_toList]

-- a character that breaks off is shown once, a byte that cannot stand where it does once each
example : shown [72, 0xF0, 0x90, 0x80, 87, 0xFF, 0xC0, 0xED, 0xA0] =
    "H\uFFFDW\uFFFD\uFFFD\uFFFD\uFFFD" := by
  decide +kernel

end MentionAlign.Text
