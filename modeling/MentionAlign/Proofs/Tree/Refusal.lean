import MentionAlign.Proofs.Tree.Descent
import MentionAlign.Proofs.Tree.Lexing

/-!
# What a tree is refused for

A tree that is not read is refused for breaking the notation, for a word that is lost, or for a
phrase without children.  The other two faults of phrases do not arise: the children of an open
phrase stand in a row behind those of the phrases around it (`StageLaid`), so its first child does
not start behind the end of its last, and its head position was taken from a child.  A break of the
notation is placed at the lexeme that could not be taken, at the last one when the tree breaks off,
and at zero when there is none; `Lexeme.standsIn_of_mem_scanFrom` says that this is the byte at which
the lexeme begins.
-/

namespace MentionAlign

namespace Lexeme

/-- A lexeme stands in a text, which begins at a byte position, where its own position says. -/
def StandsIn (l : Lexeme) (position : Nat) (cs : List Char) : Prop :=
  ∃ before after, cs = before ++ l.characters ++ after ∧
    l.position = position + Text.byteLength before

/-- What stands in the rest of a text stands in the text. -/
theorem StandsIn.behind {l : Lexeme} {position : Nat} {cs : List Char} (front : List Char)
    (h : l.StandsIn (position + Text.byteLength front) cs) : l.StandsIn position (front ++ cs) := by
  obtain ⟨before, after, rfl, hposition⟩ := h
  refine ⟨front ++ before, after, by simp only [List.append_assoc], ?_⟩
  rw [hposition, Text.byteLength_append, Nat.add_assoc]

/-- The lexer puts every lexeme where it stands. -/
theorem standsIn_of_mem_scanFrom {position : Nat} {cs : List Char} {l : Lexeme}
    (h : l ∈ scanFrom position cs) : l.StandsIn position cs := by
  fun_induction scanFrom position cs with
  | case1 => exact absurd h List.not_mem_nil
  | case2 position cs ih =>
      rcases List.mem_cons.mp h with rfl | h
      · exact ⟨[], cs, rfl, rfl⟩
      · exact StandsIn.behind ['('] (ih h)
  | case3 position cs _ ih =>
      rcases List.mem_cons.mp h with rfl | h
      · exact ⟨[], cs, rfl, rfl⟩
      · exact StandsIn.behind [')'] (ih h)
  | case4 position c cs _ _ _ ih =>
      exact StandsIn.behind [c] (Text.byteLength_singleton c ▸ ih h)
  | case5 position c cs _ _ _ word ih =>
      have hsplit : c :: cs = word ++ cs.dropWhile isWordChar := by
        simp only [word, List.cons_append, List.takeWhile_append_dropWhile]
      rw [hsplit]
      rcases List.mem_cons.mp h with rfl | h
      · exact ⟨[], _, rfl, rfl⟩
      · exact StandsIn.behind word (ih h)

end Lexeme

namespace Bracketed

/-- Open phrases, from the innermost outwards, whose children stand in one row that ends at an
offset, and whose head positions name children. -/
inductive FramesLaid : List Frame → Nat → Prop
  | nil (cursor : Nat) : FramesLaid [] cursor
  | cons {frame : Frame} {around : List Frame} {lo hi : Nat} (outer : FramesLaid around lo)
      (row : Span.InRow lo (frame.children.map Node.span) hi)
      (head : ∀ i ∈ frame.head, i < frame.children.length) : FramesLaid (frame :: around) hi

/-- A stage whose open phrases are laid in a row that ends at the cursor. -/
inductive StageLaid : Stage → Nat → Prop
  | start (cursor : Nat) : StageLaid .start cursor
  | opened {around : List Frame} {cursor : Nat} (outer : FramesLaid around cursor) :
      StageLaid (.opened around) cursor
  | inside {frame : Frame} {around : List Frame} {cursor : Nat}
      (open_ : FramesLaid (frame :: around) cursor) : StageLaid (.inside frame around) cursor
  | worded {around : List Frame} {lo : Nat} (label : String) (starred : Bool) (token : Token)
      (outer : FramesLaid around lo) (behind : lo ≤ token.span.start) :
      StageLaid (.worded label starred token around) (token.span.stop + 1)
  | crowded (label : String) (cursor : Nat) : StageLaid (.crowded label) cursor
  | finished (root : Node) (cursor : Nat) : StageLaid (.finished root) cursor

/-- What a tree may be refused for at a position. -/
def Grounds (position : Nat) (e : TreeError) : Prop :=
  (∃ fault, e = .malformed position fault) ∨ (∃ word offset, e = .wordNotFound word offset) ∨
    ∃ label, e = .invalidPhrase label .noChildren

theorem Grounds.malformed (position : Nat) (fault : BracketFault) :
    Grounds position (.malformed position fault) :=
  Or.inl ⟨fault, rfl⟩

/-- A finished node lengthens the row of the phrase around it. -/
theorem FramesLaid.close {around : List Frame} {lo : Nat} (h : FramesLaid around lo) (node : Node)
    (starred : Bool) (hbehind : lo ≤ node.span.start) :
    StageLaid (close node starred around) (node.span.stop + 1) := by
  cases h with
  | nil => exact .finished _ _
  | @cons frame around first _ outer row head =>
      have hrow : Span.InRow first ((frame.children ++ [node]).map Node.span)
          (node.span.stop + 1) := by
        rw [List.map_append]
        exact row.append ⟨hbehind, rfl⟩
      rw [Bracketed.close]
      by_cases hstarred : starred
      · by_cases hhead : frame.head.isSome
        · rw [if_pos hstarred, if_pos hhead]
          exact .crowded _ _
        · rw [if_pos hstarred, if_neg hhead]
          exact .inside (.cons outer hrow (by simp))
      · rw [if_neg hstarred]
        refine .inside (.cons outer hrow fun i hi => ?_)
        have := head i hi
        simp only [List.length_append, List.length_singleton]
        omega

section Step

variable {text : List Char} {cursor : Nat} {frame : Frame} {around : List Frame} {l : Lexeme}

/-- An outcome of the reader at a lexeme: it goes on in a row, or has grounds to refuse. -/
def LaidOrGrounds (l : Lexeme) : Except TreeError Reader → Prop
  | .ok r => StageLaid r.stage r.cursor
  | .error e => Grounds l.position e

/-- A phrase that is closed fills its row, unless it has no children. -/
theorem FramesLaid.closing (h : FramesLaid (frame :: around) cursor) (hl : l.kind = .closing) :
    LaidOrGrounds l (Reader.step text ⟨.inside frame around, cursor⟩ l) := by
  cases h with
  | @cons _ _ lo _ outer row head =>
      by_cases hempty : frame.children = []
      · simp only [Reader.step, hl, hempty, Node.phrase, List.head?_nil, Except.map]
        exact Or.inr (Or.inr ⟨frame.label, rfl⟩)
      · obtain ⟨span, hphrase, hstart, hstop, _⟩ :=
          Node.phrase_of_row frame.label hempty row head
        have hlaid := outer.close
          { label := frame.label, span, children := frame.children, headChild := frame.head }
          frame.starred hstart
        simp only [Reader.step, hl, hphrase, Except.map]
        exact hstop ▸ hlaid

/-- A word inside an open phrase is located behind its row, if the phrase has no children. -/
theorem FramesLaid.word {word : List Char} (h : FramesLaid (frame :: around) cursor)
    (hl : l.kind = .word word) :
    LaidOrGrounds l (Reader.step text ⟨.inside frame around, cursor⟩ l) := by
  cases h with
  | @cons _ _ lo _ outer row head =>
      by_cases hempty : frame.children = []
      · -- the row of no children is empty, so the phrases around end at the cursor
        have hlo : lo = cursor := by simpa [hempty, Span.InRow] using row
        subst hlo
        simp only [Reader.step, hl, hempty, List.isEmpty_nil, if_true]
        cases hlocate : locate text lo word with
        | ok token => exact .worded _ _ token outer (le_start_of_locate hlocate)
        | error e => exact Or.inr (Or.inl ⟨_, _, eq_wordNotFound_of_locate hlocate⟩)
      · simp only [Reader.step, hl, List.isEmpty_iff, hempty, if_false]
        exact .malformed _ _

/-- **One lexeme.**  From a stage laid in a row the reader comes to another, or has grounds to
refuse the lexeme. -/
theorem StageLaid.step {r : Reader} (h : StageLaid r.stage r.cursor) (l : Lexeme) :
    LaidOrGrounds l (r.step text l) := by
  obtain ⟨stage, cursor⟩ := r
  cases h with
  | start =>
      cases hl : l.kind with
      | opening =>
          simp only [Reader.step, hl]
          exact .opened (.nil cursor)
      | closing | word w =>
          simp only [Reader.step, hl]
          exact .malformed _ _
  | opened outer =>
      cases hl : l.kind with
      | word w =>
          simp only [Reader.step, hl]
          exact .inside (.cons outer rfl (by simp))
      | opening | closing =>
          simp only [Reader.step, hl]
          exact .malformed _ _
  | inside hopen =>
      cases hl : l.kind with
      | opening =>
          simp only [Reader.step, hl]
          exact .opened hopen
      | closing => exact hopen.closing hl
      | word w => exact hopen.word hl
  | worded label starred token outer behind =>
      cases hl : l.kind with
      | closing =>
          simp only [Reader.step, hl]
          exact outer.close (Node.terminal label token) starred behind
      | opening | word w =>
          simp only [Reader.step, hl]
          exact .malformed _ _
  | crowded label => exact .malformed _ _
  | finished root => exact .malformed _ _

end Step

/-- Where a run of the reader is refused: at the lexeme that it does not take; at the last one, when
it has taken all of them; or at zero, when there are none. -/
inductive RefusedAt (text : List Char) (r : Reader) (lexemes : List Lexeme) (e : TreeError) :
    Nat → Prop
  | lexeme {before after : List Lexeme} {l : Lexeme} {reached : Reader}
      (row : lexemes = before ++ l :: after) (run : r.run text before = .ok reached)
      (refused : reached.step text l = .error e) : RefusedAt text r lexemes e l.position
  | last {before : List Lexeme} {l : Lexeme} {reached : Reader} (row : lexemes = before ++ [l])
      (run : r.run text lexemes = .ok reached) : RefusedAt text r lexemes e l.position
  | empty (row : lexemes = []) : RefusedAt text r lexemes e 0

section Run

variable {text : List Char} {r : Reader} {lexemes : List Lexeme} {e : TreeError}

/-- **A run of lexemes.**  From a stage laid in a row a run is refused at the first lexeme that it
does not take, with grounds. -/
theorem StageLaid.exists_refused (h : StageLaid r.stage r.cursor)
    (hrun : r.run text lexemes = .error e) :
    ∃ before l after reached, lexemes = before ++ l :: after ∧ r.run text before = .ok reached ∧
      reached.step text l = .error e ∧ Grounds l.position e := by
  induction lexemes generalizing r with
  | nil => exact absurd hrun (by simp [Reader.run, pure, Except.pure])
  | cons l ls ih =>
      have hlaid : LaidOrGrounds l (r.step text l) := h.step l
      cases hstep : r.step text l with
      | error e' =>
          rw [Reader.run_cons_of_error hstep] at hrun
          obtain rfl := Except.error.inj hrun
          rw [hstep] at hlaid
          exact ⟨[], l, ls, r, rfl, rfl, hstep, hlaid⟩
      | ok next =>
          rw [Reader.run_cons_of_ok hstep] at hrun
          rw [hstep] at hlaid
          obtain ⟨before, m, after, reached, rfl, hbefore, hrefused, hgrounds⟩ := ih hlaid hrun
          refine ⟨l :: before, m, after, reached, rfl, ?_, hrefused, hgrounds⟩
          rw [Reader.run_cons_of_ok hstep]
          exact hbefore

/-- Where the lexemes end before the tree does, the notation is broken. -/
theorem malformed_of_result {stage : Stage} {position : Nat}
    (h : stage.result position = .error e) : ∃ fault, e = .malformed position fault := by
  cases stage with
  | finished root => exact absurd h (by simp [Stage.result])
  | start | opened | inside | worded | crowded => exact ⟨_, (Except.error.inj h).symm⟩

/-- A row of lexemes that is not read is refused at one of them, with grounds. -/
theorem exists_refusedAt_of_readLexemes {cursor : Nat}
    (h : readLexemes lexemes text cursor = .error e) :
    ∃ position, RefusedAt text ⟨.start, cursor⟩ lexemes e position ∧ Grounds position e := by
  rw [readLexemes_eq_bind] at h
  cases hrun : Reader.run text ⟨.start, cursor⟩ lexemes with
  | error e' =>
      rw [hrun] at h
      obtain rfl : e' = e := Except.error.inj h
      obtain ⟨before, l, after, reached, hrow, hbefore, hrefused, hgrounds⟩ :=
        (StageLaid.start cursor).exists_refused (r := ⟨.start, cursor⟩) hrun
      exact ⟨l.position, .lexeme hrow hbefore hrefused, hgrounds⟩
  | ok reached =>
      rw [hrun] at h
      cases hresult : reached.stage.result ((lexemes.getLast?.map Lexeme.position).getD 0) with
      | ok root => simp [Except.bind, hresult] at h
      | error e' =>
          simp only [Except.bind, hresult] at h
          obtain rfl : e' = e := Except.error.inj h
          refine ⟨_, ?_, Or.inl (malformed_of_result hresult)⟩
          cases hlast : lexemes.getLast? with
          | none => exact .empty (List.getLast?_eq_none_iff.mp hlast)
          | some l =>
              obtain ⟨before, hrow⟩ := List.getLast?_eq_some_iff.mp hlast
              exact .last hrow hrun

end Run

/-- **Bracketed trees are read safely.**  Whatever the tree, the text and the offset to start from:
a descent that checks every cut of the text, every difference and its own depth meets none that is
out of range, and gives what the reader gives; lexemes stand at the bytes that their positions name;
and a tree is refused only for breaking the notation, a lost word or a phrase without children, the
first at the lexeme that is not taken, or at the last one when the tree breaks off, or at zero when
there is none. -/
theorem parse_is_safe (tree : String) (text : List Char) (cursor : Nat) :
    Descent.parse tree text cursor = (parse tree text cursor).mapError .refused ∧
    (∀ l ∈ Lexeme.scan tree.toList, ∃ before after,
      tree.toList = before ++ l.characters ++ after ∧ l.position = Text.byteLength before) ∧
    ∀ e, parse tree text cursor = .error e → ∃ position,
      RefusedAt text ⟨.start, cursor⟩ (Lexeme.scan tree.toList) e position ∧
      ((∃ fault, e = .malformed position fault) ∨ (∃ word offset, e = .wordNotFound word offset) ∨
        ∃ label fault, e = .invalidPhrase label fault ∧ fault.message = "no children") := by
  refine ⟨Descent.parse_eq tree text cursor, ?_, ?_⟩
  · intro l hl
    obtain ⟨before, after, hsplit, hposition⟩ := Lexeme.standsIn_of_mem_scanFrom hl
    exact ⟨before, after, hsplit, by rw [hposition, Nat.zero_add]⟩
  · intro e he
    obtain ⟨position, hrefused, hgrounds⟩ := exists_refusedAt_of_readLexemes he
    refine ⟨position, hrefused, ?_⟩
    rcases hgrounds with hbroken | hlost | ⟨label, hchildless⟩
    · exact Or.inl hbroken
    · exact Or.inr (Or.inl hlost)
    · exact Or.inr (Or.inr ⟨label, .noChildren, hchildless, rfl⟩)

/-- A tree that breaks off is refused at its last parenthesis, which stands at the fifteenth byte
though it is the thirteenth character; so is the descent into it. -/
theorem parse_is_safe_where_a_tree_breaks_off :
    parse "(NPé (NN maß)" "das maß".toList 3 = .error (.malformed 14 .expectedClosing) ∧
    Descent.parse "(NPé (NN maß)" "das maß".toList 3 =
      .error (.refused (.malformed 14 .expectedClosing)) ∧
    RefusedAt "das maß".toList ⟨.start, 3⟩ (Lexeme.scan "(NPé (NN maß)".toList)
      (.malformed 14 .expectedClosing) 14 := by
  have herror : parse "(NPé (NN maß)" "das maß".toList 3 =
      .error (.malformed 14 .expectedClosing) := by
    have hresult : (match parse "(NPé (NN maß)" "das maß".toList 3 with
        | .error e => some e
        | .ok _ => none) = some (.malformed 14 .expectedClosing) := by decide +kernel
    cases hread : parse "(NPé (NN maß)" "das maß".toList 3 with
    | ok r =>
        rw [hread] at hresult
        exact absurd hresult (by simp)
    | error e =>
        rw [hread] at hresult
        rw [Option.some.inj hresult]
  obtain ⟨hdescent, _, hrefusals⟩ := parse_is_safe "(NPé (NN maß)" "das maß".toList 3
  obtain ⟨position, hrefused, hgrounds⟩ := hrefusals _ herror
  rw [herror] at hdescent
  have hposition : position = 14 := by
    rcases hgrounds with ⟨fault, hfault⟩ | ⟨word, offset, hlost⟩ | ⟨label, fault, hphrase, _⟩
    · exact (TreeError.malformed.inj hfault).1.symm
    · exact absurd hlost (by simp)
    · exact absurd hphrase (by simp)
  exact ⟨herror, hdescent, hposition ▸ hrefused⟩

end Bracketed

end MentionAlign
