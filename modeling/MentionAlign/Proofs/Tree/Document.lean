import MentionAlign.Fixture.Basic
import MentionAlign.Proofs.Tree.Grammar

/-!
# The words of a document

The trees of a document are read one after the other, each from the offset behind the last word of
the tree before it, so the words of all trees are located as one row.  What first occurrences do for
a row of words they therefore do across sentences: they find a placement whenever there is one, no
word of it further to the right than it has to be, and otherwise the first word that stands in the
way of any placement is named.
-/

namespace MentionAlign

open Bracketed

/-- A tree writes a derivation with at most one head in each phrase. -/
def Bracketed.Writes (tree : String) (d : Derivation) : Prop :=
  Spells tree.toList d.kinds ∧ d.SingleHeaded

namespace ParsedDocument

/-- The tokens of all sentences in reading order. -/
def tokens (doc : ParsedDocument) : List Token := doc.sentences.flatMap Node.tokens

section ReadTrees

variable {text : List Char} {cursor next : Nat} {trees : List String} {ds : List Derivation}
  {roots : List Node} {found : List Token} {e : TreeError}

theorem readTrees_cons (text : List Char) (cursor : Nat) (tree : String) (trees : List String) :
    readTrees text cursor (tree :: trees) =
      (parse tree text cursor).bind fun r => (readTrees text r.2 trees).map (r.1 :: ·) := by
  rw [readTrees]
  cases parse tree text cursor with
  | error e => rfl
  | ok r =>
      obtain ⟨root, middle⟩ := r
      cases hrest : readTrees text middle trees <;>
        simp [bind, Except.bind, hrest, Except.map, pure, Except.pure]

/-- Trees that are read write derivations, and the derivations are read one behind the other. -/
theorem exists_derivations_of_readTrees (h : readTrees text cursor trees = .ok roots) :
    ∃ ds next, List.Forall₂ Writes trees ds ∧ ReadsAmong text cursor ds roots next := by
  induction trees generalizing cursor roots with
  | nil =>
      obtain rfl : [] = roots := Except.ok.inj h
      exact ⟨[], cursor, .nil, .nil⟩
  | cons tree trees ih =>
      rw [readTrees_cons] at h
      cases hparse : parse tree text cursor with
      | error e => simp [hparse, Except.bind] at h
      | ok r =>
          obtain ⟨root, middle⟩ := r
          cases hrest : readTrees text middle trees with
          | error e => simp [hparse, hrest, Except.bind, Except.map] at h
          | ok others =>
              rw [hparse] at h
              simp only [Except.bind, hrest, Except.map] at h
              obtain rfl : root :: others = roots := Except.ok.inj h
              obtain ⟨d, hspells, hheads, hreads⟩ := exists_derivation_of_parse hparse
              obtain ⟨ds, next, hwrites, hothers⟩ := ih hrest
              exact ⟨d :: ds, next, .cons ⟨hspells, hheads⟩ hwrites, .cons hreads hothers⟩

/-- Trees that write derivations are read when all their words are located. -/
theorem readTrees_of_located (hwrites : List.Forall₂ Writes trees ds)
    (hlocated : locateAll text cursor (Derivation.wordsAmong ds) = .ok (found, next)) :
    ∃ roots, readTrees text cursor trees = .ok roots := by
  induction hwrites generalizing cursor found with
  | nil => exact ⟨[], rfl⟩
  | cons hwritten _ ih =>
      obtain ⟨first, middle, rest, hfirst, hrest, _⟩ := locateAll_append_eq_ok hlocated
      obtain ⟨root, _, hparse⟩ := parse_of_located hwritten.1 hwritten.2 hfirst
      obtain ⟨others, hothers⟩ := ih hrest
      refine ⟨root :: others, ?_⟩
      rw [readTrees_cons, hparse]
      simp only [Except.bind, hothers, Except.map]

/-- Trees that write derivations are refused for the first word that is lost. -/
theorem readTrees_of_lost (hwrites : List.Forall₂ Writes trees ds)
    (hlost : locateAll text cursor (Derivation.wordsAmong ds) = .error e) :
    readTrees text cursor trees = .error e := by
  induction hwrites generalizing cursor with
  | nil => exact absurd hlost (by simp [Derivation.wordsAmong, locateAll])
  | cons hwritten _ ih =>
      rw [readTrees_cons]
      rcases locateAll_append_eq_error hlost with hfirst | ⟨first, middle, hfirst, hrest⟩
      · rw [parse_of_lost hwritten.1 hwritten.2 hfirst]
        rfl
      · obtain ⟨root, _, hparse⟩ := parse_of_located hwritten.1 hwritten.2 hfirst
        rw [hparse]
        simp only [Except.bind, ih hrest, Except.map]

/-- The words of written trees are not empty. -/
theorem words_ne_nil_of_writes (hwrites : List.Forall₂ Writes trees ds) :
    ∀ word ∈ Derivation.wordsAmong ds, word ≠ [] := by
  induction hwrites with
  | nil => simp [Derivation.wordsAmong]
  | cons hwritten _ ih =>
      intro word hword
      rcases List.mem_append.mp hword with hfirst | hrest
      · exact hwritten.1.words_ne_nil word hfirst
      · exact ih word hrest

end ReadTrees

section OfBracketed

variable {docId text : String} {trees : List String} {doc : ParsedDocument}

/-- The sentences of a document are read from derivations that the trees write. -/
theorem exists_derivations_of_ofBracketed (h : ofBracketed docId text trees = .ok doc) :
    ∃ ds next, List.Forall₂ Writes trees ds ∧
      ReadsAmong text.toList 0 ds doc.sentences next := by
  unfold ofBracketed at h
  cases hread : readTrees text.toList 0 trees with
  | error e => simp [hread, Except.map] at h
  | ok roots =>
      rw [hread] at h
      obtain rfl := Except.ok.inj h
      exact exists_derivations_of_readTrees hread

/-- A document is refused exactly when its trees are. -/
theorem ofBracketed_eq_error_iff {e : TreeError} :
    ofBracketed docId text trees = .error e ↔ readTrees text.toList 0 trees = .error e := by
  unfold ofBracketed
  cases readTrees text.toList 0 trees <;> simp [Except.map]

/-- The words of a document's trees are located as one row, and give its tokens. -/
theorem locateAll_eq_tokens {ds : List Derivation} {next : Nat}
    (h : ReadsAmong text.toList 0 ds doc.sentences next) :
    locateAll text.toList 0 (Derivation.wordsAmong ds) = .ok (doc.tokens, next) := by
  rw [h.located, Node.tokensAmong_eq_flatMap]
  rfl

end OfBracketed

/-- **First occurrences locate words soundly, leftmost and completely.**  In a document that is
read, each token is the text under its span, the tokens stand apart in order, and they place the
words of the trees no further to the right than any placement does.  Trees that write derivations
are refused exactly when their words have no placement, and the error names the first word up to
which there is none. -/
theorem ofBracketed_locates_leftmost (docId text : String) (trees : List String) :
    (∀ doc, ofBracketed docId text trees = .ok doc →
      (∀ token ∈ doc.tokens, token.span.stop < text.toList.length ∧
        (text.toList.drop token.span.start).take (token.span.stop + 1 - token.span.start) =
          token.text.toList ∧
        ∀ f : Fixture, f.document.text = text → f.textOf token.span = some token.text) ∧
      doc.tokens.Pairwise (fun s t => s.span.stop < t.span.start) ∧
      ∃ ds, List.Forall₂ Writes trees ds ∧
        doc.tokens.map (fun t => t.text.toList) = Derivation.wordsAmong ds ∧
        Placement text.toList 0 (Derivation.wordsAmong ds)
          (doc.tokens.map fun t => t.span.start) ∧
        ∀ starts, Placement text.toList 0 (Derivation.wordsAmong ds) starts →
          List.Forall₂ (fun token start => token.span.start ≤ start) doc.tokens starts) ∧
    ∀ ds, List.Forall₂ Writes trees ds →
      ((∃ e, ofBracketed docId text trees = .error e) ↔
        ¬ Placeable text.toList 0 (Derivation.wordsAmong ds)) ∧
      ∀ e, ofBracketed docId text trees = .error e →
        ∃ before word after offset, Derivation.wordsAmong ds = before ++ word :: after ∧
          e = .wordNotFound (String.ofList word) offset ∧
          Placeable text.toList 0 before ∧ ¬ Placeable text.toList 0 (before ++ [word]) := by
  constructor
  · intro doc hdoc
    obtain ⟨ds, next, hwrites, hreads⟩ := exists_derivations_of_ofBracketed hdoc
    have hlocated := locateAll_eq_tokens hreads
    have hne := words_ne_nil_of_writes hwrites
    obtain ⟨hwords, hcovers⟩ := locateAll_covers hne hlocated
    refine ⟨?_, ?_, ds, hwrites, hwords, (locateAll_sound hne hlocated).1, ?_⟩
    · intro token htoken
      obtain ⟨hstop, hslice⟩ := hcovers token htoken
      refine ⟨hstop, hslice, ?_⟩
      intro f hf
      subst hf
      rw [Fixture.textOf, if_pos hstop, hslice, String.ofList_toList]
    · exact List.pairwise_map.mp (locateAll_inRow hlocated).pairwise
    · intro starts hplaced
      obtain ⟨found, last, hfound, hahead⟩ := locateAll_stays_ahead hne hplaced (Nat.le_refl 0)
      rw [hlocated] at hfound
      obtain ⟨rfl, _⟩ := Prod.mk.inj (Except.ok.inj hfound)
      exact hahead
  · intro ds hwrites
    have hne := words_ne_nil_of_writes hwrites
    cases hlocate : locateAll text.toList 0 (Derivation.wordsAmong ds) with
    | ok r =>
        obtain ⟨found, next⟩ := r
        obtain ⟨roots, hroots⟩ := readTrees_of_located hwrites hlocate
        have hplaced := (locateAll_isOk_iff hne).mp ⟨found, next, hlocate⟩
        simp only [ofBracketed_eq_error_iff, hroots, reduceCtorEq, exists_false, false_iff,
          not_not, false_implies, implies_true, and_true]
        exact hplaced
    | error lost =>
        have hrefused := readTrees_of_lost hwrites hlocate
        have hstuck := not_placeable_of_lost hne hlocate
        refine ⟨⟨fun _ => hstuck, fun _ => ⟨lost, ofBracketed_eq_error_iff.mpr hrefused⟩⟩, ?_⟩
        intro e he
        rw [ofBracketed_eq_error_iff, hrefused] at he
        exact Except.error.inj he ▸ locateAll_stuck hne hlocate

/-- A repeated word is taken where it stands first, and a word is lost when all its occurrences
stand before the word in front of it. -/
theorem ofBracketed_locates_the_cat_the_dog :
    (∃ doc, ofBracketed "d" "the cat the dog" ["(NP (D the) (N dog))"] = .ok doc ∧
      doc.tokens.map (fun t => t.span.start) = [0, 12] ∧
      doc.tokens.Pairwise (fun s t => s.span.stop < t.span.start)) ∧
    ofBracketed "d" "the cat the dog" ["(N dog)", "(N cat)"] = .error (.wordNotFound "cat" 15) ∧
    ¬ Placeable "the cat the dog".toList 0 ["dog".toList, "cat".toList] := by
  constructor
  · obtain ⟨hread, _⟩ :=
      ofBracketed_locates_leftmost "d" "the cat the dog" ["(NP (D the) (N dog))"]
    have hstarts : (ofBracketed "d" "the cat the dog" ["(NP (D the) (N dog))"]).toOption.map
        (fun doc => doc.tokens.map fun t => t.span.start) = some [0, 12] := by decide +kernel
    cases hdoc : ofBracketed "d" "the cat the dog" ["(NP (D the) (N dog))"] with
    | error e =>
        rw [hdoc] at hstarts
        exact absurd hstarts (by simp [Except.toOption])
    | ok doc =>
        rw [hdoc] at hstarts
        exact ⟨doc, rfl, Option.some.inj hstarts, (hread doc hdoc).2.1⟩
  · obtain ⟨_, hrefused⟩ :=
      ofBracketed_locates_leftmost "d" "the cat the dog" ["(N dog)", "(N cat)"]
    have hwrites : List.Forall₂ Writes ["(N dog)", "(N cat)"]
        [.terminal ['N'] "dog".toList, .terminal ['N'] "cat".toList] :=
      .cons ⟨spells_iff_scan.mpr (by decide +kernel), .terminal _ _⟩
        (.cons ⟨spells_iff_scan.mpr (by decide +kernel), .terminal _ _⟩ .nil)
    have hlost : locateAll "the cat the dog".toList 0 ["dog".toList, "cat".toList] =
        .error (.wordNotFound "cat" 15) := rfl
    have herror : ofBracketed "d" "the cat the dog" ["(N dog)", "(N cat)"] =
        .error (.wordNotFound "cat" 15) :=
      ofBracketed_eq_error_iff.mpr (readTrees_of_lost hwrites hlost)
    exact ⟨herror, (hrefused _ hwrites).1.mp ⟨_, herror⟩⟩

end ParsedDocument

end MentionAlign
