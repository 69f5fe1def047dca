import MentionAlign.Proofs.Span.Row
import MentionAlign.Tree.Bracketed
import Mathlib.Data.List.Forall2

/-!
# Placing words in a text

The words of bracketed trees carry no offsets; each is taken at its first occurrence behind the
word before it.  A `Placement` is any way of finding the words in the text in their order and
without overlap.  This file shows that taking first occurrences loses nothing:

* `locateAll_sound`: the tokens that are found form a placement;
* `locateAll_stays_ahead`: whenever some placement exists, first occurrences give one as well, and
  no word of it stands further to the right (the exchange argument);
* `locateAll_stuck`: when the search fails, it fails at the first word that no placement of the
  words before it can be extended by.
-/

namespace MentionAlign

namespace Bracketed

/-- A word stands in a text at the given character. -/
def Occurs (text : List Char) (start : Nat) (word : List Char) : Prop :=
  word <+: text.drop start

/-- The words stand in the text at the given characters, in order, without overlap, and at or
behind the first offset. -/
inductive Placement (text : List Char) : Nat → List (List Char) → List Nat → Prop
  | nil {cursor : Nat} : Placement text cursor [] []
  | cons {cursor start : Nat} {word : List Char} {words : List (List Char)} {starts : List Nat}
      (behind : cursor ≤ start) (occurs : Occurs text start word)
      (rest : Placement text (start + word.length) words starts) :
      Placement text cursor (word :: words) (start :: starts)

/-- The words can be placed at or behind an offset. -/
def Placeable (text : List Char) (cursor : Nat) (words : List (List Char)) : Prop :=
  ∃ starts, Placement text cursor words starts

/-- Locates words one behind the other; also gives the offset behind the last of them. -/
def locateAll (text : List Char) : Nat → List (List Char) → Except TreeError (List Token × Nat)
  | cursor, [] => .ok ([], cursor)
  | cursor, word :: words => do
      let token ← locate text cursor word
      let (tokens, next) ← locateAll text (token.span.stop + 1) words
      return (token :: tokens, next)

/-- A token stands where a word occurs first at or behind an offset. -/
structure FoundFirst (text : List Char) (cursor : Nat) (word : List Char) (token : Token) :
    Prop where
  spelled : token.text = String.ofList word
  behind : cursor ≤ token.span.start
  occurs : Occurs text token.span.start word
  stop : token.span.stop + 1 = token.span.start + word.length
  leftmost : ∀ k, cursor ≤ k → Occurs text k word → token.span.start ≤ k

/-- A search that succeeds stops at the first occurrence. -/
theorem findFrom_eq_some {word cs : List Char} {offset start : Nat}
    (h : Text.findFrom word offset cs = some start) :
    ∃ k, start = offset + k ∧ word <+: cs.drop k ∧ ∀ j < k, ¬ word <+: cs.drop j := by
  induction cs generalizing offset with
  | nil =>
      rw [Text.findFrom] at h
      split at h
      · next hempty =>
          have hword : word = [] := List.isEmpty_iff.mp hempty
          refine ⟨0, (Option.some.inj h).symm, ?_, by simp⟩
          simp [hword]
      · exact absurd h (by simp)
  | cons c cs ih =>
      rw [Text.findFrom] at h
      split at h
      · next hpre =>
          exact ⟨0, (Option.some.inj h).symm, List.isPrefixOf_iff_prefix.mp hpre, by simp⟩
      · next hpre =>
          obtain ⟨k, hk, hoccurs, hfirst⟩ := ih h
          refine ⟨k + 1, by omega, by simpa using hoccurs, ?_⟩
          intro j hj
          cases j with
          | zero => exact fun hp => hpre (List.isPrefixOf_iff_prefix.mpr hp)
          | succ j => simpa using hfirst j (by omega)

/-- A search that fails has passed no occurrence. -/
theorem findFrom_eq_none {word cs : List Char} {offset : Nat} (hne : word ≠ [])
    (h : Text.findFrom word offset cs = none) : ∀ k, ¬ word <+: cs.drop k := by
  induction cs generalizing offset with
  | nil =>
      intro k hp
      rw [List.drop_nil] at hp
      exact hne (List.prefix_nil.mp hp)
  | cons c cs ih =>
      rw [Text.findFrom] at h
      split at h
      · exact absurd h (by simp)
      · next hpre =>
          intro k
          cases k with
          | zero => exact fun hp => hpre (List.isPrefixOf_iff_prefix.mpr hp)
          | succ k => simpa using ih h k

/-- A located word stands at its first occurrence. -/
theorem foundFirst_of_locate {text word : List Char} {cursor : Nat} {token : Token}
    (hne : word ≠ []) (h : locate text cursor word = .ok token) :
    FoundFirst text cursor word token := by
  unfold locate at h
  split at h
  · next start hfind =>
      obtain ⟨k, hk, hoccurs, hfirst⟩ := findFrom_eq_some hfind
      have hpos : 0 < word.length := List.length_pos_iff.mpr hne
      have htoken := Except.ok.inj h
      rw [List.drop_drop] at hoccurs
      subst htoken
      refine ⟨rfl, by simp only; omega, hk ▸ hoccurs, by simp only; omega, ?_⟩
      intro j hj hp
      -- an earlier occurrence would have been met on the way
      by_cases hlt : j < start
      · have hp' : word <+: (text.drop cursor).drop (j - cursor) := by
          rw [List.drop_drop, Nat.add_sub_cancel' hj]
          exact hp
        exact absurd hp' (hfirst (j - cursor) (by omega))
      · simp only
        omega
  · exact absurd h (by simp)

/-- A word that occurs is located. -/
theorem locate_of_occurs {text word : List Char} {cursor k : Nat} (hne : word ≠ [])
    (hk : cursor ≤ k) (hoccurs : Occurs text k word) :
    ∃ token, locate text cursor word = .ok token := by
  unfold locate
  split
  · exact ⟨_, rfl⟩
  · next hfind =>
      have hnone := findFrom_eq_none hne hfind (k - cursor)
      rw [List.drop_drop, Nat.add_sub_cancel' hk] at hnone
      exact absurd hoccurs hnone

/-- A word is located at or behind the offset given. -/
theorem le_start_of_locate {text word : List Char} {cursor : Nat} {token : Token}
    (h : locate text cursor word = .ok token) : cursor ≤ token.span.start := by
  unfold locate at h
  split at h
  · next start hfind =>
      obtain ⟨k, hk, _⟩ := findFrom_eq_some hfind
      have htoken := Except.ok.inj h
      subst htoken
      simp only
      omega
  · exact absurd h (by simp)

/-- A located word is the text of its token. -/
theorem text_of_locate {text word : List Char} {cursor : Nat} {token : Token}
    (h : locate text cursor word = .ok token) : token.text = String.ofList word := by
  unfold locate at h
  split at h
  · exact (Except.ok.inj h) ▸ rfl
  · exact absurd h (by simp)

/-- A word that is not located is named by the error. -/
theorem eq_wordNotFound_of_locate {text word : List Char} {cursor : Nat} {e : TreeError}
    (h : locate text cursor word = .error e) :
    e = .wordNotFound (String.ofList word) cursor := by
  unfold locate at h
  split at h
  · exact absurd h (by simp)
  · exact (Except.error.inj h).symm

section Equations

variable {text word : List Char} {cursor next : Nat} {words : List (List Char)}
  {token : Token} {tokens : List Token} {e : TreeError}

theorem locateAll_cons_of_ok (h : locate text cursor word = .ok token) :
    locateAll text cursor (word :: words) =
      (locateAll text (token.span.stop + 1) words).map fun r => (token :: r.1, r.2) := by
  rw [locateAll, h]
  cases hrest : locateAll text (token.span.stop + 1) words <;> simp [bind, Except.bind, hrest,
    Except.map, pure, Except.pure]

theorem locateAll_cons_of_error (h : locate text cursor word = .error e) :
    locateAll text cursor (word :: words) = .error e := by
  rw [locateAll, h]
  rfl

/-- Locating words succeeds by locating the first one and then the others behind it. -/
theorem locateAll_cons_eq_ok_iff :
    locateAll text cursor (word :: words) = .ok (tokens, next) ↔
      ∃ token rest, locate text cursor word = .ok token ∧
        locateAll text (token.span.stop + 1) words = .ok (rest, next) ∧ tokens = token :: rest := by
  cases h : locate text cursor word with
  | error e => simp [locateAll_cons_of_error h]
  | ok token =>
      rw [locateAll_cons_of_ok h]
      cases hrest : locateAll text (token.span.stop + 1) words with
      | error e => simp [Except.map, hrest]
      | ok r =>
          obtain ⟨rest, last⟩ := r
          simp only [Except.map, Except.ok.injEq, Prod.mk.injEq]
          constructor
          · intro h
            obtain ⟨rfl, rfl⟩ := h
            exact ⟨token, rest, rfl, hrest, rfl⟩
          · intro h
            obtain ⟨_, others, rfl, hothers, rfl⟩ := h
            rw [hrest] at hothers
            obtain ⟨rfl, rfl⟩ := Prod.mk.inj (Except.ok.inj hothers)
            exact ⟨rfl, rfl⟩

end Equations

/-- Rows of words are located one behind the other. -/
theorem locateAll_append {text : List Char} {cursor middle : Nat}
    {before after : List (List Char)} {tokens : List Token}
    (h : locateAll text cursor before = .ok (tokens, middle)) :
    locateAll text cursor (before ++ after) =
      (locateAll text middle after).map fun r => (tokens ++ r.1, r.2) := by
  induction before generalizing cursor tokens with
  | nil =>
      obtain ⟨rfl, rfl⟩ := Prod.mk.inj (Except.ok.inj h)
      rw [List.nil_append]
      cases locateAll text cursor after <;> rfl
  | cons word words ih =>
      obtain ⟨token, rest, htoken, hrest, rfl⟩ := locateAll_cons_eq_ok_iff.mp h
      rw [List.cons_append, locateAll_cons_of_ok htoken, ih hrest]
      cases locateAll text middle after <;> rfl

/-- A row that is lost at one word stays lost whatever words follow. -/
theorem locateAll_append_of_error {text : List Char} {cursor : Nat}
    {before : List (List Char)} {e : TreeError} (after : List (List Char))
    (h : locateAll text cursor before = .error e) :
    locateAll text cursor (before ++ after) = .error e := by
  induction before generalizing cursor with
  | nil => exact absurd h (by simp [locateAll])
  | cons word words ih =>
      rw [List.cons_append]
      cases hword : locate text cursor word with
      | error e' =>
          rw [locateAll_cons_of_error hword] at h ⊢
          exact h
      | ok token =>
          rw [locateAll_cons_of_ok hword] at h ⊢
          cases hrest : locateAll text (token.span.stop + 1) words with
          | ok r => rw [hrest] at h; exact absurd h (by simp [Except.map])
          | error e' =>
              rw [hrest] at h
              rw [ih (Except.error.inj h ▸ hrest)]
              rfl

/-- Rows of words are located together when each of them is located behind the one before. -/
theorem locateAll_append_eq_ok {text : List Char} {cursor next : Nat}
    {before after : List (List Char)} {tokens : List Token}
    (h : locateAll text cursor (before ++ after) = .ok (tokens, next)) :
    ∃ first middle rest, locateAll text cursor before = .ok (first, middle) ∧
      locateAll text middle after = .ok (rest, next) ∧ tokens = first ++ rest := by
  cases hbefore : locateAll text cursor before with
  | error e =>
      rw [locateAll_append_of_error after hbefore] at h
      exact absurd h (by simp)
  | ok r =>
      obtain ⟨first, middle⟩ := r
      rw [locateAll_append hbefore] at h
      cases hafter : locateAll text middle after with
      | error e =>
          rw [hafter] at h
          exact absurd h (by simp [Except.map])
      | ok s =>
          rw [hafter] at h
          obtain ⟨rfl, rfl⟩ := Prod.mk.inj (Except.ok.inj h)
          exact ⟨first, middle, s.1, rfl, hafter, rfl⟩

/-- Rows of words are lost in the first of them or in the second. -/
theorem locateAll_append_eq_error {text : List Char} {cursor : Nat}
    {before after : List (List Char)} {e : TreeError}
    (h : locateAll text cursor (before ++ after) = .error e) :
    locateAll text cursor before = .error e ∨
      ∃ first middle, locateAll text cursor before = .ok (first, middle) ∧
        locateAll text middle after = .error e := by
  cases hbefore : locateAll text cursor before with
  | error e' =>
      rw [locateAll_append_of_error after hbefore] at h
      exact Or.inl h
  | ok r =>
      obtain ⟨first, middle⟩ := r
      rw [locateAll_append hbefore] at h
      cases hafter : locateAll text middle after with
      | error e' =>
          rw [hafter] at h
          exact Or.inr ⟨first, middle, rfl, hafter.trans h⟩
      | ok s =>
          rw [hafter] at h
          exact absurd h (by simp [Except.map])

/-- The tokens stand in a row that begins at the offset given and ends at the offset returned. -/
theorem locateAll_inRow {text : List Char} {cursor next : Nat} {words : List (List Char)}
    {tokens : List Token} (h : locateAll text cursor words = .ok (tokens, next)) :
    Span.InRow cursor (tokens.map Token.span) next := by
  induction words generalizing cursor tokens with
  | nil =>
      obtain ⟨rfl, rfl⟩ := Prod.mk.inj (Except.ok.inj h)
      exact rfl
  | cons word words ih =>
      obtain ⟨token, rest, htoken, hrest, rfl⟩ := locateAll_cons_eq_ok_iff.mp h
      exact ⟨le_start_of_locate htoken, ih hrest⟩

/-- **Soundness.**  Each token spells its word and stands where the word occurs, and the tokens
form a placement. -/
theorem locateAll_sound {text : List Char} {cursor next : Nat} {words : List (List Char)}
    {tokens : List Token} (hne : ∀ word ∈ words, word ≠ [])
    (h : locateAll text cursor words = .ok (tokens, next)) :
    Placement text cursor words (tokens.map fun t => t.span.start) ∧
      List.Forall₂ (fun word token => token.text = String.ofList word ∧
        Occurs text token.span.start word ∧
        token.span.stop + 1 = token.span.start + word.length) words tokens := by
  induction words generalizing cursor tokens with
  | nil =>
      obtain ⟨rfl, rfl⟩ := Prod.mk.inj (Except.ok.inj h)
      exact ⟨.nil, .nil⟩
  | cons word words ih =>
      obtain ⟨token, rest, htoken, hrest, rfl⟩ := locateAll_cons_eq_ok_iff.mp h
      have hfound := foundFirst_of_locate (hne word List.mem_cons_self) htoken
      obtain ⟨hplaced, hspelled⟩ := ih (fun w hw => hne w (List.mem_cons_of_mem _ hw)) hrest
      rw [hfound.stop] at hplaced
      exact ⟨.cons hfound.behind hfound.occurs hplaced,
        .cons ⟨hfound.spelled, hfound.occurs, hfound.stop⟩ hspelled⟩

/-- A token over a word that occurs covers exactly the characters of the word. -/
theorem slice_of_occurs {cs word : List Char} {token : Token} (hne : word ≠ [])
    (hoccurs : Occurs cs token.span.start word)
    (hstop : token.span.stop + 1 = token.span.start + word.length) :
    token.span.stop < cs.length ∧
      (cs.drop token.span.start).take (token.span.stop + 1 - token.span.start) = word := by
  have hpos : 0 < word.length := List.length_pos_iff.mpr hne
  have hroom : word.length ≤ cs.length - token.span.start := by
    have := hoccurs.length_le
    rwa [List.length_drop] at this
  refine ⟨by omega, ?_⟩
  rw [hstop, Nat.add_sub_cancel_left]
  exact (List.prefix_iff_eq_take.mp hoccurs).symm

/-- The tokens carry the words, and each of them is the text that it covers. -/
theorem locateAll_covers {text : List Char} {cursor next : Nat} {words : List (List Char)}
    {tokens : List Token} (hne : ∀ word ∈ words, word ≠ [])
    (h : locateAll text cursor words = .ok (tokens, next)) :
    tokens.map (fun t => t.text.toList) = words ∧
      ∀ token ∈ tokens, token.span.stop < text.length ∧
        (text.drop token.span.start).take (token.span.stop + 1 - token.span.start) =
          token.text.toList := by
  have hspelled := (locateAll_sound hne h).2
  clear h
  induction hspelled with
  | nil => simp
  | @cons word token words tokens hfirst _ ih =>
      obtain ⟨htext, hoccurs, hstop⟩ := hfirst
      obtain ⟨hwords, hcovers⟩ := ih fun w hw => hne w (List.mem_cons_of_mem _ hw)
      have hword : token.text.toList = word := by rw [htext, String.toList_ofList]
      refine ⟨by rw [List.map_cons, hwords, hword], List.forall_mem_cons.mpr ⟨?_, hcovers⟩⟩
      rw [hword]
      exact slice_of_occurs (hne word List.mem_cons_self) hoccurs hstop

/-- **First occurrences stay ahead.**  Where a placement exists at or behind an offset, the words
are located from any earlier offset, each no later than in that placement. -/
theorem locateAll_stays_ahead {text : List Char} {cursor earlier : Nat}
    {words : List (List Char)} {starts : List Nat} (hne : ∀ word ∈ words, word ≠ [])
    (h : Placement text cursor words starts) (hle : earlier ≤ cursor) :
    ∃ tokens next, locateAll text earlier words = .ok (tokens, next) ∧
      List.Forall₂ (fun token start => token.span.start ≤ start) tokens starts := by
  induction h generalizing earlier with
  | nil => exact ⟨[], earlier, rfl, .nil⟩
  | @cons cursor start word words starts behind occurs _ ih =>
      have hword := hne word List.mem_cons_self
      obtain ⟨token, htoken⟩ := locate_of_occurs hword (Nat.le_trans hle behind) occurs
      have hfound := foundFirst_of_locate hword htoken
      have hahead : token.span.start ≤ start :=
        hfound.leftmost start (Nat.le_trans hle behind) occurs
      -- the word ends no later than in the placement, so the others have no less room
      have hroom : token.span.stop + 1 ≤ start + word.length := by
        rw [hfound.stop]
        omega
      obtain ⟨rest, next, hrest, hothers⟩ :=
        ih (fun w hw => hne w (List.mem_cons_of_mem _ hw)) hroom
      exact ⟨token :: rest, next, locateAll_cons_eq_ok_iff.mpr ⟨token, rest, htoken, hrest, rfl⟩,
        .cons hahead hothers⟩

/-- Words are located exactly when they can be placed. -/
theorem locateAll_isOk_iff {text : List Char} {cursor : Nat} {words : List (List Char)}
    (hne : ∀ word ∈ words, word ≠ []) :
    (∃ tokens next, locateAll text cursor words = .ok (tokens, next)) ↔
      Placeable text cursor words := by
  constructor
  · intro hok
    obtain ⟨tokens, next, h⟩ := hok
    exact ⟨_, (locateAll_sound hne h).1⟩
  · intro hplaced
    obtain ⟨starts, h⟩ := hplaced
    obtain ⟨tokens, next, hok, _⟩ := locateAll_stays_ahead hne h (Nat.le_refl cursor)
    exact ⟨tokens, next, hok⟩

/-- Words of which one is lost cannot be placed. -/
theorem not_placeable_of_lost {text : List Char} {cursor : Nat} {words : List (List Char)}
    {e : TreeError} (hne : ∀ word ∈ words, word ≠ [])
    (h : locateAll text cursor words = .error e) : ¬ Placeable text cursor words := by
  intro hplaced
  obtain ⟨_, _, hok⟩ := (locateAll_isOk_iff hne).mpr hplaced
  rw [h] at hok
  exact absurd hok (by simp)

/-- A failed search has located the words before the one that it lost. -/
theorem exists_split_of_lost {text : List Char} {cursor : Nat} {words : List (List Char)}
    {e : TreeError} (h : locateAll text cursor words = .error e) :
    ∃ before word after tokens offset, words = before ++ word :: after ∧
      locateAll text cursor before = .ok (tokens, offset) ∧
      locate text offset word = .error e := by
  induction words generalizing cursor with
  | nil => exact absurd h (by simp [locateAll])
  | cons word words ih =>
      cases hword : locate text cursor word with
      | error e' =>
          rw [locateAll_cons_of_error hword] at h
          exact ⟨[], word, words, [], cursor, rfl, rfl, Except.error.inj h ▸ hword⟩
      | ok token =>
          rw [locateAll_cons_of_ok hword] at h
          cases hrest : locateAll text (token.span.stop + 1) words with
          | ok r =>
              rw [hrest] at h
              exact absurd h (by simp [Except.map])
          | error e' =>
              rw [hrest] at h
              obtain ⟨before, lost, after, tokens, offset, rfl, hbefore, hlost⟩ :=
                ih (Except.error.inj h ▸ hrest)
              exact ⟨word :: before, lost, after, token :: tokens, offset, rfl,
                locateAll_cons_eq_ok_iff.mpr ⟨token, tokens, hword, hbefore, rfl⟩, hlost⟩

/-- **Where the search gets stuck.**  A failed search names a word, the words before it can be
placed, and no placement reaches up to and including it. -/
theorem locateAll_stuck {text : List Char} {cursor : Nat} {words : List (List Char)}
    {e : TreeError} (hne : ∀ word ∈ words, word ≠ [])
    (h : locateAll text cursor words = .error e) :
    ∃ before word after offset, words = before ++ word :: after ∧
      e = .wordNotFound (String.ofList word) offset ∧
      Placeable text cursor before ∧ ¬ Placeable text cursor (before ++ [word]) := by
  obtain ⟨before, word, after, tokens, offset, rfl, hbefore, hlost⟩ := exists_split_of_lost h
  have hstuck : locateAll text cursor (before ++ [word]) = .error e := by
    rw [locateAll_append hbefore, locateAll_cons_of_error hlost]
    rfl
  have hplaced : Placeable text cursor before :=
    (locateAll_isOk_iff fun w hw => hne w (by simp [hw])).mp ⟨tokens, offset, hbefore⟩
  have hword : ∀ w ∈ before ++ [word], w ≠ [] := by
    intro w hw
    rcases List.mem_append.mp hw with hw | hw
    · exact hne w (by simp [hw])
    · exact hne w (by simp [List.mem_singleton.mp hw])
  exact ⟨before, word, after, offset, rfl, eq_wordNotFound_of_locate hlost, hplaced,
    not_placeable_of_lost hword hstuck⟩

end Bracketed

end MentionAlign
