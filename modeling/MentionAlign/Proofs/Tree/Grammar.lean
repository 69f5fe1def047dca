import MentionAlign.Proofs.Tree.Reading
import MentionAlign.Proofs.Tree.Spelling

/-!
# What the reader of trees accepts

A tree is read exactly when its text spells the row of a derivation in which no phrase has two
starred children and whose words can be placed in the document text; what is read mirrors the
derivation.  Between the characters of the tree and the derivation stands the row of lexeme kinds,
so the outcome depends on the tree only through that row, up to the byte position that an error
names.
-/

namespace MentionAlign

/-- An error without the byte position at which the notation breaks. -/
def TreeError.unplaced : TreeError → TreeError
  | .malformed _ fault => .malformed 0 fault
  | e => e

namespace Bracketed

section Parse

variable {tree : String} {text : List Char} {cursor next : Nat} {ls : List Lexeme}
  {d : Derivation} {root : Node} {tokens : List Token} {e : TreeError}

/-- The words of a derivation that is written somewhere are not empty. -/
theorem Spells.words_ne_nil {cs : List Char} (h : Spells cs d.kinds) :
    ∀ word ∈ d.words, word ≠ [] :=
  fun word hword => h.word_ne_nil word (d.word_mem_kinds word hword)

/-- Reading is a run of the reader and the result of the stage that it ends in. -/
theorem readLexemes_eq_bind :
    readLexemes ls text cursor =
      (Reader.run text ⟨.start, cursor⟩ ls).bind fun r =>
        (r.stage.result ((ls.getLast?.map Lexeme.position).getD 0)).bind fun root =>
          .ok (root, r.cursor) := rfl

/-- A row of lexemes is read to a tree when it leads to the finished stage. -/
theorem readLexemes_eq_ok_iff :
    readLexemes ls text cursor = .ok (root, next) ↔
      Reader.run text ⟨.start, cursor⟩ ls = .ok ⟨.finished root, next⟩ := by
  rw [readLexemes_eq_bind]
  cases Reader.run text ⟨.start, cursor⟩ ls with
  | error e => simp [Except.bind]
  | ok r =>
      obtain ⟨stage, c⟩ := r
      cases stage <;> simp [Except.bind, Stage.result]

theorem readLexemes_of_error (h : Reader.run text ⟨.start, cursor⟩ ls = .error e) :
    readLexemes ls text cursor = .error e := by
  rw [readLexemes_eq_bind, h]
  rfl

/-- A written derivation is read when its words are located. -/
theorem parse_of_located (hspells : Spells tree.toList d.kinds) (hheads : d.SingleHeaded)
    (hlocated : locateAll text cursor d.words = .ok (tokens, next)) :
    ∃ root, Reads text cursor d root next ∧ parse tree text cursor = .ok (root, next) := by
  obtain ⟨root, hreads, hrun⟩ :=
    arrives_of_singleHeaded text hheads (spells_iff_scan.mp hspells) .start hlocated
  exact ⟨root, hreads, readLexemes_eq_ok_iff.mpr hrun⟩

/-- A written derivation is refused for its first word that is lost. -/
theorem parse_of_lost (hspells : Spells tree.toList d.kinds) (hheads : d.SingleHeaded)
    (hlost : locateAll text cursor d.words = .error e) : parse tree text cursor = .error e :=
  readLexemes_of_error (halts_of_singleHeaded text hheads (spells_iff_scan.mp hspells) .start hlost)

/-- What is read is a written derivation. -/
theorem exists_derivation_of_parse (h : parse tree text cursor = .ok (root, next)) :
    ∃ d : Derivation, Spells tree.toList d.kinds ∧ d.SingleHeaded ∧
      Reads text cursor d root next := by
  obtain ⟨d, hkinds, hheads⟩ := exists_derivation_of_run (readLexemes_eq_ok_iff.mp h)
  have hspells : Spells tree.toList d.kinds := spells_iff_scan.mpr hkinds
  cases hlocate : locateAll text cursor d.words with
  | error e =>
      rw [parse_of_lost hspells hheads hlocate] at h
      exact absurd h (by simp)
  | ok r =>
      obtain ⟨tokens, middle⟩ := r
      obtain ⟨root', hreads, hparse⟩ := parse_of_located hspells hheads hlocate
      rw [hparse] at h
      obtain ⟨rfl, rfl⟩ := Prod.mk.inj (Except.ok.inj h)
      exact ⟨d, hspells, hheads, hreads⟩

end Parse

/-! ### Blanks -/

section Blanks

variable {ls ms : List Lexeme}

/-- A step depends on the kind of a lexeme, up to the position that an error names. -/
theorem step_congr (text : List Char) (r : Reader) {l m : Lexeme} (h : l.kind = m.kind) :
    (r.step text l).mapError TreeError.unplaced =
      (r.step text m).mapError TreeError.unplaced := by
  obtain ⟨stage, cursor⟩ := r
  cases stage with
  | inside frame around =>
      cases hm : m.kind with
      | opening => simp only [Reader.step, h, hm]
      | closing => simp only [Reader.step, h, hm]
      | word w =>
          by_cases hempty : frame.children.isEmpty
          · simp only [Reader.step, h, hm, hempty, ↓reduceIte]
          · simp [Reader.step, h, hm, hempty, Except.mapError, TreeError.unplaced]
  | _ =>
      cases hm : m.kind <;>
        simp only [Reader.step, h, hm, Except.mapError, TreeError.unplaced]

/-- A run depends on the kinds of its lexemes, up to the position that an error names. -/
theorem run_congr (text : List Char) (r : Reader) (h : ls.map Lexeme.kind = ms.map Lexeme.kind) :
    (r.run text ls).mapError TreeError.unplaced =
      (r.run text ms).mapError TreeError.unplaced := by
  induction ls generalizing r ms with
  | nil =>
      obtain rfl : ms = [] := List.map_eq_nil_iff.mp h.symm
      rfl
  | cons l ls ih =>
      obtain ⟨m, ms, rfl, hkind, hrest⟩ := List.map_eq_cons_iff.mp h.symm
      have hstep := step_congr text r hkind.symm
      cases hl : r.step text l with
      | error e =>
          cases hm : r.step text m with
          | error e' =>
              rw [hl, hm] at hstep
              rw [Reader.run_cons_of_error hl, Reader.run_cons_of_error hm]
              exact hstep
          | ok s => simp [hl, hm, Except.mapError] at hstep
      | ok r' =>
          cases hm : r.step text m with
          | error e => simp [hl, hm, Except.mapError] at hstep
          | ok s =>
              rw [hl, hm] at hstep
              obtain rfl : r' = s := Except.ok.inj hstep
              rw [Reader.run_cons_of_ok hl, Reader.run_cons_of_ok hm]
              exact ih r' hrest.symm

/-- **Blanks do not matter.**  Trees that spell the same row are read to the same tree or refused
for the same fault, wherever their blanks stand. -/
theorem parse_congr {tree other : String} {text : List Char} {cursor : Nat}
    {ks : List LexemeKind} (htree : Spells tree.toList ks) (hother : Spells other.toList ks) :
    (parse tree text cursor).mapError TreeError.unplaced =
      (parse other text cursor).mapError TreeError.unplaced := by
  have hkinds : (Lexeme.scan tree.toList).map Lexeme.kind =
      (Lexeme.scan other.toList).map Lexeme.kind := by
    rw [spells_iff_scan.mp htree, spells_iff_scan.mp hother]
  have hrun := run_congr text ⟨.start, cursor⟩ hkinds
  rw [parse, parse, readLexemes_eq_bind, readLexemes_eq_bind]
  generalize Reader.run text ⟨.start, cursor⟩ (Lexeme.scan tree.toList) = x at hrun ⊢
  generalize Reader.run text ⟨.start, cursor⟩ (Lexeme.scan other.toList) = y at hrun ⊢
  cases x with
  | error e =>
      cases y with
      | error e' => simpa [Except.mapError, Except.bind] using hrun
      | ok s => simp [Except.mapError] at hrun
  | ok r =>
      cases y with
      | error e => simp [Except.mapError] at hrun
      | ok s =>
          obtain rfl : r = s := Except.ok.inj hrun
          obtain ⟨stage, c⟩ := r
          cases stage <;> rfl

end Blanks

/-! ### The accepted trees -/

/-- The offset behind a written derivation is the one behind its last token. -/
theorem exists_last_token {cs text : List Char} {cursor next : Nat} {d : Derivation} {root : Node}
    (hspells : Spells cs d.kinds) (hreads : Reads text cursor d root next) :
    ∃ last, root.tokens.getLast? = some last ∧ next = last.span.stop + 1 := by
  have hlength := (locateAll_sound hspells.words_ne_nil hreads.located).2.length_eq
  have hne : root.tokens ≠ [] := by
    intro hnil
    rw [hnil] at hlength
    exact d.words_ne_nil (List.eq_nil_of_length_eq_zero hlength)
  have hlast := List.getLast?_eq_some_getLast hne
  refine ⟨_, hlast, ?_⟩
  exact ((locateAll_inRow hreads.located).getLast (by rw [List.getLast?_map, hlast]; rfl)).symm

/-- **The notation and nothing else.**  A tree is read exactly when it spells a derivation with at
most one head in each phrase and words that can be placed; the derivation is the only one that it
spells, the root mirrors it, and the offset returned is the one behind the last token.  Blanks
between lexemes change nothing but the positions that errors name. -/
theorem parse_accepts_notation (tree : String) (text : List Char) (cursor : Nat) :
    ((∃ root next, parse tree text cursor = .ok (root, next)) ↔
      ∃ d : Derivation, Spells tree.toList d.kinds ∧ d.SingleHeaded ∧
        Placeable text cursor d.words) ∧
    (∀ root next, parse tree text cursor = .ok (root, next) →
      ∃ d : Derivation, Spells tree.toList d.kinds ∧
        (∀ e : Derivation, Spells tree.toList e.kinds → e = d) ∧ d.Mirrors root ∧
        ∃ last, root.tokens.getLast? = some last ∧ next = last.span.stop + 1) ∧
    ∀ (other : String) (ks : List LexemeKind), Spells tree.toList ks → Spells other.toList ks →
      (parse tree text cursor).mapError TreeError.unplaced =
        (parse other text cursor).mapError TreeError.unplaced := by
  refine ⟨⟨?_, ?_⟩, ?_, fun other ks htree hother => parse_congr htree hother⟩
  · intro h
    obtain ⟨root, next, h⟩ := h
    obtain ⟨d, hspells, hheads, hreads⟩ := exists_derivation_of_parse h
    have hplaced := (locateAll_isOk_iff hspells.words_ne_nil).mp ⟨_, _, hreads.located⟩
    exact ⟨d, hspells, hheads, hplaced⟩
  · intro h
    obtain ⟨d, hspells, hheads, hplaced⟩ := h
    obtain ⟨tokens, next, hlocated⟩ := (locateAll_isOk_iff hspells.words_ne_nil).mpr hplaced
    obtain ⟨root, _, hparse⟩ := parse_of_located hspells hheads hlocated
    exact ⟨root, next, hparse⟩
  · intro root next h
    obtain ⟨d, hspells, _, hreads⟩ := exists_derivation_of_parse h
    refine ⟨d, hspells, fun e he => ?_, hreads.mirrors, exists_last_token hspells hreads⟩
    exact Derivation.kinds_injective (he.kinds_eq hspells)

/-- A sentence with a starred child, placed behind the first word of the text; written with other
blanks it is read to the same tree. -/
theorem parse_accepts_dog_barks :
    ∃ (root : Node) (d : Derivation),
      parse "(S (NN* dog) (VB barks))" "The dog barks".toList 3 = .ok (root, 13) ∧
      root.headChild = some 0 ∧
      Spells "(S (NN* dog) (VB barks))".toList d.kinds ∧ d.Mirrors root ∧
      (parse "( S(NN*  dog)(VB\tbarks)) " "The dog barks".toList 3).mapError TreeError.unplaced =
        .ok (root, 13) := by
  obtain ⟨_, hdescribed, hblanks⟩ :=
    parse_accepts_notation "(S (NN* dog) (VB barks))" "The dog barks".toList 3
  have hresult : ((parse "(S (NN* dog) (VB barks))" "The dog barks".toList 3).toOption.map
      fun r => (r.1.headChild, r.2)) = some (some 0, 13) := by decide +kernel
  have hother := hblanks "( S(NN*  dog)(VB\tbarks)) " _ (spells_iff_scan.mpr rfl)
    (spells_iff_scan.mpr (by decide +kernel))
  cases hread : parse "(S (NN* dog) (VB barks))" "The dog barks".toList 3 with
  | error e =>
      rw [hread] at hresult
      exact absurd hresult (by simp [Except.toOption])
  | ok r =>
      obtain ⟨root, next⟩ := r
      rw [hread] at hresult hother
      obtain ⟨hhead, rfl⟩ := Prod.mk.inj (Option.some.inj hresult)
      obtain ⟨d, hspells, _, hmirrors, _⟩ := hdescribed root 13 hread
      exact ⟨root, d, rfl, hhead, hspells, hmirrors, hother.symm⟩

end Bracketed

end MentionAlign
