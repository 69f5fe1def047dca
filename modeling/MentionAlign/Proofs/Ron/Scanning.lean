import MentionAlign.Data.Ron.Lexer
import MentionAlign.Data.Ron.Writer
import MentionAlign.Proofs.Data.Shown
import MentionAlign.Proofs.Text.Numerals

/-!
# What is written falls into its tokens

The writer lays structured data out over lines and spells texts with escapes; the scanner takes one
character at a time.  For data of the shapes that typed values are written in (`Datum.Plain`) the
scanner finds exactly the tokens of the data, whatever the level of the lines and whatever stands
behind, as long as a word or numeral ends there (`Plain.scans`).

A word or numeral has no end of its own.  In what is written it is always followed by a comma, a
colon or a parenthesis, or by nothing (`Bounded`).
-/

namespace MentionAlign.Ron

open Datum (Plain isName)

mutual

/-- The tokens of a value as it is written. -/
def tokens : Datum → List Token
  | .absent => [.word "None"]
  | .present d => .word "Some" :: .mark '(' :: tokens d ++ [.mark ')']
  | .boolean b => [.word (if b then "true" else "false")]
  | .natural n => [.natural n]
  | .text s => [.text s]
  | .list items => .mark '[' :: tokensOfItems items ++ [.mark ']']
  | .record _ entries => .mark '(' :: tokensOfEntries entries ++ [.mark ')']
  | .moment _ | .scalar | .other _ | .marked .. | .either .. | .unclosed _ | .broken => []

/-- The tokens of the items of a list. -/
def tokensOfItems : List Datum → List Token
  | [] => []
  | d :: ds => tokens d ++ .mark ',' :: tokensOfItems ds

/-- The tokens of the entries of a record. -/
def tokensOfEntries : List (String × Datum) → List Token
  | [] => []
  | (name, d) :: es => .word name :: .mark ':' :: tokens d ++ .mark ',' :: tokensOfEntries es

end

/-- What stands directly behind a word or numeral ends it. -/
def Bounded (rest : List Char) : Prop := ∀ c ∈ rest.head?, c = ',' ∨ c = ')' ∨ c = '(' ∨ c = ':'

theorem bounded_nil : Bounded [] := by simp [Bounded]

theorem bounded_comma (cs : List Char) : Bounded (',' :: cs) := by simp [Bounded]

theorem bounded_closing (cs : List Char) : Bounded (')' :: cs) := by simp [Bounded]

theorem bounded_opening (cs : List Char) : Bounded ('(' :: cs) := by simp [Bounded]

theorem bounded_colon (cs : List Char) : Bounded (':' :: cs) := by simp [Bounded]

section Lines

/-- Blanks between tokens are passed over. -/
theorem scanFrom_blanks (n : Nat) (rest : List Char) :
    scanFrom .between (List.replicate n ' ' ++ rest) = scanFrom .between rest := by
  induction n with
  | zero => rfl
  | succ n ih => rw [List.replicate_succ, List.cons_append, scanFrom]; simpa [step, stepBetween]

/-- A line break between tokens is passed over. -/
theorem scanFrom_lineBreak (level : Nat) (rest : List Char) :
    scanFrom .between (lineBreak level ++ rest) = scanFrom .between rest := by
  rw [lineBreak, List.cons_append, scanFrom]
  simpa [step, stepBetween] using scanFrom_blanks (4 * level) rest

/-- An opening parenthesis is a token by itself unless it is closed at once. -/
theorem scanFrom_opening {rest : List Char} (h : rest.head? ≠ some ')') :
    scanFrom .between ('(' :: rest) = .mark '(' :: scanFrom .between rest := by
  rw [show scanFrom .between ('(' :: rest) = scanFrom .opened rest from rfl]
  cases rest with
  | nil => rfl
  | cons c cs =>
      have hc : c ≠ ')' := by simpa using h
      simp [scanFrom, step, hc, finishThen, Mode.finish]

/-- A class of characters that holds none of the marks holds no character that is one. -/
theorem isMark_eq_false {p : Char → Bool} (hp : "()[]\x7b\x7d,:#!".toList.any p = false) {c : Char}
    (hc : p c = true) : isMark c = false := by
  refine Bool.eq_false_iff.mpr fun hmark => ?_
  have hmem : c ∈ "()[]\x7b\x7d,:#!".toList := List.contains_iff_mem.mp hmark
  have hany : "()[]\x7b\x7d,:#!".toList.any p = true := List.any_eq_true.mpr ⟨c, hmem, hc⟩
  exact Bool.false_ne_true (hp.symm.trans hany)

/-- A parenthesis, bracket, comma or colon that is met between tokens. -/
theorem scanFrom_mark {c : Char} (hmark : isMark c = true) (hopening : c ≠ '(') (rest : List Char) :
    scanFrom .between (c :: rest) = .mark c :: scanFrom .between rest := by
  have hblank : ¬ (c = ' ' ∨ c = '\t' ∨ c = '\n' ∨ c = '\r') := by
    rintro (rfl | rfl | rfl | rfl) <;> exact absurd hmark (by decide)
  simp only [not_or] at hblank
  simp [scanFrom, step, stepBetween, hmark, hopening, hblank]

end Lines

section Words

variable {c : Char} {cs chars rest : List Char}

/-- The text of collected characters ends with the last of them. -/
theorem collected_cons_ne {word : String} (h : word.toList.getLast? ≠ some c) :
    collected (c :: chars) ≠ word := by
  rintro rfl
  simp [collected] at h

/-- A character that bounds a word neither goes on with one nor makes it a raw text. -/
theorem stepWord_of_bounded (chars : List Char) (hc : c = ',' ∨ c = ')' ∨ c = '(' ∨ c = ':') :
    stepWord chars c = finishThen (.word chars) c := by
  have hpart : isRawWordPart c = false := by rcases hc with rfl | rfl | rfl | rfl <;> decide
  have hword : isWordPart c = false := by rcases hc with rfl | rfl | rfl | rfl <;> decide
  -- a word with `r` at its end begins a raw text before a hash or a quotation mark only
  have hraw : ∀ word ∈ ["r#", "r\"", "Somer#", "Somer\""], collected (c :: chars) ≠ word := by
    refine fun word hmem => collected_cons_ne ?_
    revert word
    rcases hc with rfl | rfl | rfl | rfl <;> decide
  simp only [List.forall_mem_cons] at hraw
  simp [stepWord, hword, hpart, hraw]

/-- A word goes on as long as its characters do, and ends where it is bounded. -/
theorem scanFrom_word (hcs : ∀ c ∈ cs, isWordPart c = true) (hrest : Bounded rest) :
    scanFrom (.word chars) (cs ++ rest) =
      .word (collected (cs.reverse ++ chars)) :: scanFrom .between rest := by
  induction cs generalizing chars with
  | nil =>
      cases rest with
      | nil => rfl
      | cons c rest =>
          have hstep := stepWord_of_bounded chars (hrest c rfl)
          simp [scanFrom, step, hstep, finishThen, Mode.finish]
  | cons c cs ih =>
      obtain ⟨hc, hcs⟩ := List.forall_mem_cons.mp hcs
      have hstep : stepWord chars c = ([], .word (c :: chars)) := by simp [stepWord, hc]
      simp [scanFrom, step, hstep, ih hcs]

/-- A name before a bound is one word. -/
theorem scanFrom_name {name : String} (hname : isName name = true) (hrest : Bounded rest) :
    scanFrom .between (name.toList ++ rest) = .word name :: scanFrom .between rest := by
  unfold isName at hname
  cases hchars : name.toList with
  | nil => simp [hchars] at hname
  | cons c cs =>
      simp only [hchars, Bool.and_eq_true, List.all_eq_true] at hname
      have hstart : isWordStart c = true := hname.1
      have hparts : ∀ d ∈ cs, isWordPart d = true := hname.2
      have hother : ¬ (c = ' ' ∨ c = '\t' ∨ c = '\n' ∨ c = '\r' ∨ c = '(') := by
        rintro (rfl | rfl | rfl | rfl | rfl) <;> exact absurd hstart (by decide)
      have hmark : isMark c = false := isMark_eq_false (by decide) hstart
      simp only [not_or] at hother
      have hstep : stepBetween c = ([], .word [c]) := by
        simp [stepBetween, hother, hmark, hstart]
      have hcollected : collected (cs.reverse ++ [c]) = name := by
        rw [collected, List.reverse_append, List.reverse_reverse, List.reverse_singleton,
          List.singleton_append, ← hchars, String.ofList_toList]
      rw [List.cons_append, scanFrom, step, hstep, scanFrom_word hparts hrest, hcollected]
      rfl

end Words

section Numerals

variable {cs chars rest : List Char}

/-- The digits of a number are a first digit and more of them. -/
theorem exists_toDigits_eq_cons (n : Nat) :
    ∃ c cs, Nat.toDigits 10 n = c :: cs ∧ c.isDigit = true ∧ ∀ b ∈ cs, b.isDigit = true := by
  have hdigits : ∀ c ∈ Nat.toDigits 10 n, c.isDigit = true := fun _ =>
    Text.isDigit_of_mem_toDigits
  cases hn : Nat.toDigits 10 n with
  | nil => exact absurd hn Nat.toDigits_ne_nil
  | cons c cs =>
      rw [hn, List.forall_mem_cons] at hdigits
      exact ⟨c, cs, rfl, hdigits⟩

/-- A numeral goes on as long as its digits do, and ends where it is bounded. -/
theorem scanFrom_digits (hcs : ∀ c ∈ cs, c.isDigit = true) (hrest : Bounded rest) :
    scanFrom (.numeral chars) (cs ++ rest) =
      numeral (chars.reverse ++ cs) :: scanFrom .between rest := by
  induction cs generalizing chars with
  | nil =>
      cases rest with
      | nil => simp [scanFrom, Mode.finish]
      | cons c rest =>
          have hpart : isRawWordPart c = false := by
            rcases hrest c rfl with rfl | rfl | rfl | rfl <;> decide
          simp [scanFrom, step, hpart, finishThen, Mode.finish]
  | cons c cs ih =>
      obtain ⟨hc, hcs⟩ := List.forall_mem_cons.mp hcs
      have hpart : isRawWordPart c = true := by
        simp [isRawWordPart, isWordPart, Char.isAlphanum, hc]
      simp [scanFrom, step, hpart, ih hcs]

theorem splitBase_of_isDigit (hcs : ∀ c ∈ cs, c.isDigit = true) : splitBase cs = (10, cs) := by
  unfold splitBase
  split <;> simp_all

/-- The digits of a number spell that number. -/
theorem whole?_toDigits (n : Nat) : whole? (Nat.toDigits 10 n) = some n := by
  have hdigits : ∀ c ∈ Nat.toDigits 10 n, c.isDigit = true := fun _ =>
    Text.isDigit_of_mem_toDigits
  have hfilter : (Nat.toDigits 10 n).filter (· != '_') = Nat.toDigits 10 n := by
    refine List.filter_eq_self.mpr fun c hc => ?_
    have hdigit := hdigits c hc
    have hne : c ≠ '_' := by rintro rfl; exact absurd hdigit (by decide)
    simp [hne]
  unfold whole?
  rw [splitBase_of_isDigit hdigits]
  obtain ⟨c, cs, hn, hc, _⟩ := exists_toDigits_eq_cons n
  split
  · next h => simp [hn] at h
  · next h => rw [hn] at h; simp_all
  · next base digits _ _ h =>
      obtain ⟨rfl, rfl⟩ := Prod.mk.inj h
      rw [hfilter, Text.valueIn?_toDigits (by decide) (by decide)]

/-- A digit between tokens begins a numeral. -/
theorem stepBetween_of_isDigit {c : Char} (hc : c.isDigit = true) :
    stepBetween c = ([], .numeral [c]) := by
  have hall : ∀ d < 10,
      stepBetween (Char.ofNat (48 + d)) = ([], .numeral [Char.ofNat (48 + d)]) := by decide
  obtain ⟨hlow, hhigh⟩ : 48 ≤ c.toNat ∧ c.toNat ≤ 57 := Char.isDigit_iff_toNat.mp hc
  have hstep := hall (c.toNat - 48) (by omega)
  rwa [Nat.add_sub_cancel' hlow, Char.ofNat_toNat] at hstep

/-- The numeral of a number in range is one token. -/
theorem scanFrom_toDigits {n : Nat} (hn : n < Text.offsetBound) (hrest : Bounded rest) :
    scanFrom .between (Nat.toDigits 10 n ++ rest) = .natural n :: scanFrom .between rest := by
  have hnumeral : numeral (Nat.toDigits 10 n) = .natural n := by
    simp [numeral, whole?_toDigits, Option.filter_some, hn]
  obtain ⟨c, cs, hcs, hc, hdigits⟩ := exists_toDigits_eq_cons n
  have hstep : stepBetween c = ([], .numeral [c]) := stepBetween_of_isDigit hc
  rw [hcs, List.cons_append, scanFrom, step, hstep, scanFrom_digits hdigits hrest,
    List.reverse_singleton, List.singleton_append, ← hcs, hnumeral]
  rfl

end Numerals

section Texts

variable {rest chars : List Char} {mark : Char}

/-- Hexadecimal digits of a code point are taken one after the other, up to six of them. -/
theorem scanFrom_codePoint {digits : List Char} {count value n : Nat}
    (hcount : count + digits.length ≤ 6)
    (hvalue : digits.foldlM (fun n c => (Text.digit? 16 c).map (16 * n + ·)) value = some n) :
    scanFrom (.quoted mark chars (.codePoint count value)) (digits ++ rest) =
      scanFrom (.quoted mark chars (.codePoint (count + digits.length) n)) rest := by
  induction digits generalizing count value with
  | nil => obtain rfl := Option.some.inj hvalue; rfl
  | cons c digits ih =>
      rw [List.length_cons] at hcount
      cases hdigit : Text.digit? 16 c with
      | none => simp [hdigit] at hvalue
      | some d =>
          simp only [List.foldlM_cons, hdigit, Option.map_some] at hvalue
          have hhex : Text.hexDigit? c = some d := (Option.filter_eq_some_iff.mp hdigit).1
          have hc : c ≠ '\x7d' := by
            rintro rfl
            exact absurd hhex (by simp [show Text.hexDigit? '\x7d' = none by decide])
          have hlt : count < 6 := by omega
          have hstep : stepQuoted mark chars (.codePoint count value) c =
              ([], .quoted mark chars (.codePoint (count + 1) (16 * value + d))) := by
            simp [stepQuoted, hc, hhex, hlt, Option.filter_some]
          rw [List.cons_append, scanFrom, step, hstep, ih (by omega) hvalue, List.length_cons,
            Nat.add_assoc, Nat.add_comm 1]
          rfl

/-- A character that is written by its code point is read back. -/
theorem scanFrom_codePointEscape (c : Char) :
    scanFrom (.quoted '"' chars .outside) (Text.codePointEscape c ++ rest) =
      scanFrom (.quoted '"' (c :: chars) .outside) rest := by
  have hbound : c.toNat < 16 ^ 6 := by
    have hvalid : c.toNat.isValidChar := c.valid
    simp only [Nat.isValidChar] at hvalid
    omega
  -- six hexadecimal digits hold every code point, and the reader takes no more
  have hlength : (Nat.toDigits 16 c.toNat).length ≤ 6 :=
    (Nat.length_toDigits_le_iff (by decide) (by decide)).mpr hbound
  have hpos : 0 < (Nat.toDigits 16 c.toNat).length := List.length_pos_iff.mpr Nat.toDigits_ne_nil
  have hvalue : Text.valueIn? 16 (Nat.toDigits 16 c.toNat) = some c.toNat :=
    Text.valueIn?_toDigits (by decide) (by decide) c.toNat
  have hchar : Text.charOfCode? c.toNat = some c := by
    simp [Text.charOfCode?, show c.toNat.isValidChar from c.valid, Char.ofNat_toNat]
  have hdigits : scanFrom (.quoted '"' chars (.codePoint 0 0))
      (Nat.toDigits 16 c.toNat ++ '\x7d' :: rest) =
      scanFrom (.quoted '"' (c :: chars) .outside) rest := by
    rw [scanFrom_codePoint (by omega) hvalue, scanFrom]
    simp [step, stepQuoted, hchar, hpos, Option.filter_some]
  simp only [Text.codePointEscape, List.cons_append, List.append_assoc, List.nil_append]
  simpa [scanFrom, step, stepQuoted, quotation] using hdigits

/-- What stands for a character inside a text is read as that character. -/
theorem scanFrom_escapeChar (c : Char) :
    scanFrom (.quoted '"' chars .outside) (Text.escapeChar .escaped c ++ rest) =
      scanFrom (.quoted '"' (c :: chars) .outside) rest := by
  by_cases hletter : c ∈ ['\x00', '\t', '\r', '\n', '"', '\\', '\'']
  · simp only [List.mem_cons, List.not_mem_nil, or_false] at hletter
    rcases hletter with rfl | rfl | rfl | rfl | rfl | rfl | rfl <;> rfl
  · simp only [List.mem_cons, List.not_mem_nil, or_false, not_or] at hletter
    simp only [Text.escapeChar, hletter, false_and, if_false]
    split
    · exact scanFrom_codePointEscape c
    · simp [scanFrom, step, stepQuoted, hletter]

theorem scanFrom_escape (cs : List Char) :
    scanFrom (.quoted '"' chars .outside) (Text.escape .escaped cs ++ rest) =
      scanFrom (.quoted '"' (cs.reverse ++ chars) .outside) rest := by
  induction cs generalizing chars with
  | nil => rfl
  | cons c cs ih =>
      have hescape : Text.escape .escaped (c :: cs) =
          Text.escapeChar .escaped c ++ Text.escape .escaped cs := List.flatMap_cons
      rw [hescape, List.append_assoc, scanFrom_escapeChar, ih, List.reverse_cons,
        List.append_assoc, List.singleton_append]

/-- **Texts are read back.**  A quoted text is the token of that text, whatever characters it has
and whatever stands behind. -/
theorem scanFrom_quote (s : String) (rest : List Char) :
    scanFrom .between ((Text.quote .escaped s).toList ++ rest) =
      .text s :: scanFrom .between rest := by
  have hinside : scanFrom (.quoted '"' [] .outside) (Text.escape .escaped s.toList ++ '"' :: rest) =
      .text s :: scanFrom .between rest := by
    rw [scanFrom_escape, scanFrom]
    simp [step, stepQuoted, quotation, collected]
  simp only [Text.quote, String.toList_ofList, List.cons_append, List.append_assoc,
    List.nil_append]
  exact hinside

end Texts

section Values

/-- The tokens of what is written of a value are those of the value, on any level and before any
bound. -/
def Scans (d : Datum) : Prop :=
  ∀ level rest, Bounded rest →
    scanFrom .between (write level d ++ rest) = tokens d ++ scanFrom .between rest

/-- The written items of a list fall into their tokens if each one does. -/
theorem scanFrom_writeItems {items : List Datum} (h : ∀ d ∈ items, Scans d) (level : Nat)
    (rest : List Char) :
    scanFrom .between (writeItems level items ++ rest) =
      tokensOfItems items ++ scanFrom .between rest := by
  induction items with
  | nil => rfl
  | cons d items ih =>
      obtain ⟨hd, hitems⟩ := List.forall_mem_cons.mp h
      rw [writeItems, List.append_assoc, List.append_assoc, scanFrom_lineBreak, List.cons_append,
        hd level _ (bounded_comma _), scanFrom_mark (by decide) (by decide), ih hitems,
        tokensOfItems, List.append_assoc, List.cons_append]

/-- The written entries of a record fall into their tokens if each value does. -/
theorem scanFrom_writeEntries {entries : List (String × Datum)}
    (hnames : (entries.map Prod.fst).all isName = true) (h : ∀ e ∈ entries, Scans e.2) (level : Nat)
    (rest : List Char) :
    scanFrom .between (writeEntries level entries ++ rest) =
      tokensOfEntries entries ++ scanFrom .between rest := by
  induction entries with
  | nil => rfl
  | cons e entries ih =>
      obtain ⟨name, d⟩ := e
      obtain ⟨hd, hentries⟩ := List.forall_mem_cons.mp h
      obtain ⟨hname, hnames⟩ := Bool.and_eq_true_iff.mp hnames
      have hfield : ∀ cs, scanFrom .between (name.toList ++ (": ".toList ++ cs)) =
          .word name :: .mark ':' :: scanFrom .between cs :=
        fun _ => scanFrom_name hname (bounded_colon _)
      simp only [writeEntries, List.append_assoc, List.cons_append, tokensOfEntries]
      rw [scanFrom_lineBreak, hfield, hd level _ (bounded_comma _),
        scanFrom_mark (by decide) (by decide), ih hnames hentries]

/-- What is written of a value begins with something else than a closing parenthesis. -/
theorem Plain.head?_write_ne {d : Datum} (hd : Plain d) (level : Nat) (rest : List Char) :
    (write level d ++ rest).head? ≠ some ')' := by
  cases hd with
  | absent | present | text => simp [write, Text.quote]
  | boolean b => cases b <;> simp [write]
  | @natural n _ =>
      obtain ⟨c, cs, hcs, hc, _⟩ := exists_toDigits_eq_cons n
      rw [write, hcs]
      simp only [List.cons_append, List.head?_cons, ne_eq, Option.some.injEq]
      rintro rfl
      exact absurd hc (by decide)
  | @list items _ => cases items <;> simp [write]
  | @record entries _ _ _ => cases entries <;> simp_all [write]

/-- **What is written falls into its tokens.** -/
theorem Plain.scans {d : Datum} (hd : Plain d) : Scans d := by
  induction hd with
  | absent => exact fun level rest hrest => scanFrom_name (by decide) hrest
  | @present d hd ih =>
      intro level rest _
      have hopened : (write level d ++ ')' :: rest).head? ≠ some ')' := Plain.head?_write_ne hd _ _
      calc scanFrom .between (write level (.present d) ++ rest)
          = scanFrom .between ("Some".toList ++ '(' :: (write level d ++ ')' :: rest)) := by
            simp [write]
        _ = .word "Some" :: .mark '(' :: scanFrom .between (write level d ++ ')' :: rest) := by
            rw [scanFrom_name (by decide) (bounded_opening _), scanFrom_opening hopened]
        _ = tokens (.present d) ++ scanFrom .between rest := by
            rw [ih level _ (bounded_closing _), scanFrom_mark (by decide) (by decide)]
            simp [tokens]
  | boolean b => cases b <;> exact fun level rest hrest => scanFrom_name (by decide) hrest
  | natural hn => exact fun level rest hrest => scanFrom_toDigits hn hrest
  | text s => exact fun level rest _ => scanFrom_quote s rest
  | @list items _ ih =>
      intro level rest _
      cases items with
      | nil => rfl
      | cons d ds =>
          simp only [write, List.append_assoc, List.cons_append, List.nil_append]
          rw [scanFrom_mark (by decide) (by decide), scanFrom_writeItems ih, scanFrom_lineBreak,
            scanFrom_mark (by decide) (by decide)]
          simp [tokens]
  | @record entries hentries hnames _ ih =>
      intro level rest _
      cases entries with
      | nil => exact absurd rfl hentries
      | cons e es =>
          simp only [write, List.append_assoc, List.cons_append, List.nil_append]
          -- the parenthesis is not an empty pair: the line break of the first entry follows
          rw [scanFrom_opening (by simp [writeEntries, lineBreak]), scanFrom_writeEntries hnames ih,
            scanFrom_lineBreak, scanFrom_mark (by decide) (by decide)]
          simp [tokens]

/-- A text that is written of a value falls into the tokens of the value. -/
theorem Plain.scan_write {d : Datum} (hd : Plain d) (level : Nat) :
    scan (write level d) = tokens d := by
  have h := Plain.scans hd level [] bounded_nil
  rwa [List.append_nil, show scanFrom .between [] = [] from rfl, List.append_nil] at h

end Values

end MentionAlign.Ron
