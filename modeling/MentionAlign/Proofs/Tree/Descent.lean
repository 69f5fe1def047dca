import MentionAlign.Proofs.Tree.Grammar

/-!
# Trees read by descent

A bracketed tree can also be read by descending into it: a function for a node calls itself for the
children, moves an index over the row of lexemes and another over the text, cuts the text at an
index to compare what follows with a word, and takes indices from one another.  Here each of these
operations is checked.  An index behind the end, a difference below zero and a nesting deeper than
allowed are outcomes of their own, `Stop`, apart from the errors of a tree that is refused.

`Descent.parse_eq` shows that none of these outcomes arises, whatever the tree, the text and the
offset to start from: with one level more than there are lexemes the descent gives what the reader
gives, tree for tree and error for error.  The two are brought together by `remaining`, what the
reader makes of the lexemes from a place of the descent on, and by `Follows`, which says that a
descent from there comes out as the reader does.
-/

namespace MentionAlign

namespace Bracketed

/-- How a descent can end without a tree. -/
inductive Stop
  /-- The tree is refused. -/
  | refused (error : TreeError)
  /-- The text is cut at an index behind its end. -/
  | behindEnd (index length : Nat)
  /-- A number is taken from a smaller one. -/
  | belowZero (from_ taken : Nat)
  /-- The nesting is deeper than allowed. -/
  | tooDeep

/-- How far a descent has come: the index of the next lexeme, and the character offset behind the
last word. -/
structure Place where
  index : Nat
  cursor : Nat

namespace Descent

/-- The difference of two numbers. -/
def difference (a b : Nat) : Except Stop Nat :=
  if b ≤ a then .ok (a - b) else .error (.belowZero a b)

/-- The text from an index on. -/
def cut (text : List Char) (i : Nat) : Except Stop (List Char) :=
  if i ≤ text.length then .ok (text.drop i) else .error (.behindEnd i text.length)

/-- The first of the given indices at which the word stands. -/
def firstAt (text word : List Char) : List Nat → Except Stop (Option Nat)
  | [] => .ok none
  | i :: is => do
      let rest ← cut text i
      if word.isPrefixOf rest then return some i else firstAt text word is

/-- The indices from `cursor` on, up to the last one at which there is room for the word, or up to
zero if there is room nowhere. -/
def candidates (text word : List Char) (cursor : Nat) : List Nat :=
  List.range' cursor (text.length - word.length + 1 - cursor)

/-- Locates a word by trying the candidates. -/
def locate (text : List Char) (cursor : Nat) (word : List Char) : Except Stop Token := do
  match ← firstAt text word (candidates text word cursor) with
  | some start =>
      let stop ← difference (start + word.length) 1
      match Span.ofOffsets start stop with
      | .ok span => return { text := String.ofList word, span }
      | .error e => .error (.refused (.input e))
  | none => .error (.refused (.wordNotFound (String.ofList word) cursor))

section Row

variable (lexemes : List Lexeme) (text : List Char)

/-- What the next lexeme is. -/
def kindAt (index : Nat) : Option LexemeKind := lexemes[index]?.map Lexeme.kind

/-- The byte position of the next lexeme, or else of the last one, or else zero. -/
def positionAt (index : Nat) : Nat :=
  ((lexemes[index]?.or lexemes.getLast?).map Lexeme.position).getD 0

/-- The notation breaks at the next lexeme. -/
def refuse (index : Nat) (fault : BracketFault) : Stop :=
  .refused (.malformed (positionAt lexemes index) fault)

/-- Moves behind a closing parenthesis. -/
def pass (p : Place) : Except Stop Place :=
  if kindAt lexemes p.index = some .closing then .ok { p with index := p.index + 1 }
  else .error (refuse lexemes p.index .expectedClosing)

mutual

/-- Reads one tree, and whether it is starred.  A call leaves one less of `depth` to the calls that
it makes. -/
def node : Nat → Place → Except Stop ((Node × Bool) × Place)
  | 0, _ => .error .tooDeep
  | depth + 1, p =>
      if kindAt lexemes p.index = some .opening then
        match kindAt lexemes (p.index + 1) with
        | some (.word label) =>
            match kindAt lexemes (p.index + 2) with
            | some (.word word) => do
                let token ← locate text p.cursor word
                let p ← pass lexemes { index := p.index + 3, cursor := token.span.stop + 1 }
                return ((Node.terminal (splitLabel label).1 token, (splitLabel label).2), p)
            | _ =>
                inside depth { label := (splitLabel label).1, starred := (splitLabel label).2 }
                  { p with index := p.index + 2 }
        | _ => do
            -- the lexeme has been taken before it is looked at, so the index goes back to it
            let index ← difference (p.index + 2) 1
            .error (refuse lexemes index .expectedLabel)
      else .error (refuse lexemes p.index .expectedOpening)

/-- Reads the rest of an open phrase. -/
def inside : Nat → Frame → Place → Except Stop ((Node × Bool) × Place)
  | 0, _, _ => .error .tooDeep
  | depth + 1, frame, p =>
      if kindAt lexemes p.index = some .opening then do
        let ((child, starred), p) ← node depth p
        if starred then
          if frame.head.isSome then .error (refuse lexemes p.index (.severalHeads frame.label))
          else
            inside depth { frame with
              children := frame.children ++ [child], head := some frame.children.length } p
        else inside depth { frame with children := frame.children ++ [child] } p
      else do
        let p ← pass lexemes p
        match Node.phrase frame.label frame.children frame.head with
        | .ok n => return ((n, frame.starred), p)
        | .error e => .error (.refused e)

end

/-- Reads a row of lexemes as one tree over the text. -/
def readRow (cursor : Nat) : Except Stop (Node × Nat) := do
  let ((root, _), p) ← node lexemes text (lexemes.length + 1) { index := 0, cursor }
  match lexemes[p.index]? with
  | some extra => .error (.refused (.malformed extra.position .trailingInput))
  | none => return (root, p.cursor)

end Row

/-- Reads one bracketed tree over the text by descending into it. -/
def parse (tree : String) (text : List Char) (cursor : Nat) : Except Stop (Node × Nat) :=
  readRow (Lexeme.scan tree.toList) text cursor

/-! ### Words -/

section Words

variable {text word : List Char} {cursor : Nat}

/-- Every candidate lies within the text. -/
theorem le_length_of_mem_candidates : ∀ i ∈ candidates text word cursor, i ≤ text.length := by
  intro i hi
  have := List.mem_range'_1.mp hi
  omega

/-- Within the text the first index is found without a bad cut. -/
theorem firstAt_eq_find? {is : List Nat} (h : ∀ i ∈ is, i ≤ text.length) :
    firstAt text word is = .ok (is.find? fun i => word.isPrefixOf (text.drop i)) := by
  induction is with
  | nil => rfl
  | cons i is ih =>
      obtain ⟨hi, his⟩ := List.forall_mem_cons.mp h
      rw [firstAt, cut, if_pos hi, List.find?_cons]
      by_cases hprefix : word.isPrefixOf (text.drop i)
      · simp [bind, Except.bind, pure, Except.pure, hprefix]
      · simp only [bind, Except.bind, hprefix, Bool.false_eq_true, if_false]
        exact ih his

/-- The first candidate at which a word stands is where it is located. -/
theorem find?_candidates_eq_some (hne : word ≠ []) {token : Token}
    (h : Bracketed.locate text cursor word = .ok token) :
    (candidates text word cursor).find? (fun i => word.isPrefixOf (text.drop i)) =
      some token.span.start := by
  have hfound := foundFirst_of_locate hne h
  have hbehind := hfound.behind
  have hroom := hfound.occurs.length_le
  have hpos := List.length_pos_iff.mpr hne
  rw [List.length_drop] at hroom
  refine List.find?_range'_eq_some.mpr ⟨List.isPrefixOf_iff_prefix.mpr hfound.occurs, ?_, ?_⟩
  · exact List.mem_range'_1.mpr (by omega)
  · intro i hi hlt
    by_contra hprefix
    have hoccurs : Occurs text i word := List.isPrefixOf_iff_prefix.mp (by simpa using hprefix)
    exact absurd (hfound.leftmost i hi hoccurs) (by omega)

/-- Where a word is not located it stands at no candidate. -/
theorem find?_candidates_eq_none (hne : word ≠ []) {e : TreeError}
    (h : Bracketed.locate text cursor word = .error e) :
    (candidates text word cursor).find? (fun i => word.isPrefixOf (text.drop i)) = none := by
  refine List.find?_range'_eq_none.mpr fun i hi _ => ?_
  by_contra hprefix
  have hoccurs : Occurs text i word := List.isPrefixOf_iff_prefix.mp (by simpa using hprefix)
  obtain ⟨token, htoken⟩ := locate_of_occurs hne hi hoccurs
  rw [h] at htoken
  exact absurd htoken (by simp)

theorem span_text_of_locate {token : Token} (h : Bracketed.locate text cursor word = .ok token) :
    token.span.text = none := by
  unfold Bracketed.locate at h
  split at h
  · exact Except.ok.inj h ▸ rfl
  · exact absurd h (by simp)

/-- **Words are located within the text.**  Trying the candidates locates a word as the reader does:
no cut goes behind the end of the text, the last offset is not below zero, and the offsets make a
span. -/
theorem locate_eq (hne : word ≠ []) :
    locate text cursor word = (Bracketed.locate text cursor word).mapError .refused := by
  rw [locate, firstAt_eq_find? le_length_of_mem_candidates]
  cases h : Bracketed.locate text cursor word with
  | error e =>
      rw [find?_candidates_eq_none hne h, eq_wordNotFound_of_locate h]
      rfl
  | ok token =>
      have hfound := foundFirst_of_locate hne h
      have hpos := List.length_pos_iff.mpr hne
      have hstop := hfound.stop
      have hdifference : difference (token.span.start + word.length) 1 = .ok token.span.stop := by
        rw [difference, if_pos (by omega)]
        exact congrArg Except.ok (by omega)
      have hspan : Span.ofOffsets token.span.start token.span.stop = .ok token.span :=
        Span.ofOffsets_eq_ok_iff.mpr ⟨rfl, rfl, span_text_of_locate h⟩
      rw [find?_candidates_eq_some hne h]
      simp only [bind, Except.bind, hdifference, hspan, ← hfound.spelled, Except.mapError]
      rfl

end Words

/-! ### The reader at a place of the descent -/

section Remaining

variable (lexemes : List Lexeme) (text : List Char)

/-- What the reader makes of the lexemes from a place on. -/
def remaining (stage : Stage) (p : Place) : Except TreeError (Node × Nat) :=
  (Reader.run text ⟨stage, p.cursor⟩ (lexemes.drop p.index)).bind fun r =>
    (r.stage.result ((lexemes.getLast?.map Lexeme.position).getD 0)).bind fun root =>
      .ok (root, r.cursor)

/-- A descent inside open phrases follows the reader: with a tree it has moved on, and the reader
makes of the rest what it makes of the rest behind the tree; without one it has been refused as by
the reader. -/
def Follows (rest : Except TreeError (Node × Nat)) (around : List Frame) (p : Place) :
    Except Stop ((Node × Bool) × Place) → Prop
  | .ok (r, p') => p.index < p'.index ∧ rest = remaining lexemes text (close r.1 r.2 around) p'
  | .error stop => ∃ e, stop = .refused e ∧ rest = .error e

variable {lexemes text} {stage stage' : Stage} {p p' : Place} {l : Lexeme} {cursor : Nat}

theorem remaining_of_step (hl : lexemes[p.index]? = some l)
    (hstep : Reader.step text ⟨stage, p.cursor⟩ l = .ok ⟨stage', cursor⟩) :
    remaining lexemes text stage p =
      remaining lexemes text stage' { index := p.index + 1, cursor } := by
  obtain ⟨hindex, rfl⟩ := List.getElem?_eq_some_iff.mp hl
  rw [remaining, List.drop_eq_getElem_cons hindex, Reader.run_cons_of_ok hstep]
  rfl

theorem remaining_of_step_error {e : TreeError} (hl : lexemes[p.index]? = some l)
    (hstep : Reader.step text ⟨stage, p.cursor⟩ l = .error e) :
    remaining lexemes text stage p = .error e := by
  obtain ⟨hindex, rfl⟩ := List.getElem?_eq_some_iff.mp hl
  rw [remaining, List.drop_eq_getElem_cons hindex, Reader.run_cons_of_error hstep]
  rfl

theorem remaining_of_end (hl : lexemes[p.index]? = none) :
    remaining lexemes text stage p =
      (stage.result (positionAt lexemes p.index)).bind fun root => .ok (root, p.cursor) := by
  rw [remaining, List.drop_eq_nil_of_le (List.getElem?_eq_none_iff.mp hl), positionAt, hl]
  rfl

/-- A stage that takes neither the next lexeme nor the end is refused at the next lexeme. -/
theorem remaining_of_refused {fault : BracketFault}
    (hstep : ∀ l, lexemes[p.index]? = some l →
      Reader.step text ⟨stage, p.cursor⟩ l = .error (.malformed l.position fault))
    (hend : ∀ position, stage.result position = .error (.malformed position fault)) :
    remaining lexemes text stage p =
      .error (.malformed (positionAt lexemes p.index) fault) := by
  cases hl : lexemes[p.index]? with
  | none =>
      rw [remaining_of_end hl, hend]
      rfl
  | some l =>
      rw [remaining_of_step_error hl (hstep l hl), positionAt, hl]
      rfl

end Remaining

/-! ### Descent and reader -/

section Agreement

variable {lexemes : List Lexeme} {text : List Char} {around : List Frame} {p : Place}

theorem kind_ne_of_kindAt {l : Lexeme} {kind : LexemeKind} (h : kindAt lexemes p.index ≠ some kind)
    (hl : lexemes[p.index]? = some l) : l.kind ≠ kind :=
  fun hkind => h (by rw [kindAt, hl, Option.map_some, hkind])

/-- What follows the reader from a place follows it from any place before it. -/
theorem Follows.of_eq {rest rest' : Except TreeError (Node × Nat)} {p' : Place}
    {outcome : Except Stop ((Node × Bool) × Place)} (h : Follows lexemes text rest around p' outcome)
    (hindex : p.index ≤ p'.index) (hrest : rest' = rest) :
    Follows lexemes text rest' around p outcome := by
  subst hrest
  cases outcome with
  | error stop => exact h
  | ok r => exact ⟨Nat.lt_of_le_of_lt hindex h.1, h.2⟩

/-- A terminal with its word is closed as by the reader. -/
theorem follows_worded (label : String) (starred : Bool) (token : Token) :
    Follows lexemes text (remaining lexemes text (.worded label starred token around) p) around p
      ((pass lexemes p).map fun p' => ((Node.terminal label token, starred), p')) := by
  by_cases hclosing : kindAt lexemes p.index = some .closing
  · obtain ⟨l, hl, hkind⟩ := Option.map_eq_some_iff.mp hclosing
    rw [pass, if_pos hclosing]
    exact ⟨Nat.lt_succ_self _, remaining_of_step hl (by simp only [Reader.step, hkind])⟩
  · rw [pass, if_neg hclosing]
    refine ⟨_, rfl, remaining_of_refused (fun l hl => ?_) fun _ => rfl⟩
    have hother := kind_ne_of_kindAt hclosing hl
    cases hkind : l.kind with
    | closing => exact absurd hkind hother
    | opening | word w => simp only [Reader.step, hkind]

/-- An open phrase that has no more children is closed as by the reader. -/
theorem follows_closing {frame : Frame} (hopening : kindAt lexemes p.index ≠ some .opening)
    (hword : frame.children = [] → ∀ w, kindAt lexemes p.index ≠ some (.word w)) :
    Follows lexemes text (remaining lexemes text (.inside frame around) p) around p
      ((pass lexemes p).bind fun p' =>
        match Node.phrase frame.label frame.children frame.head with
        | .ok n => .ok ((n, frame.starred), p')
        | .error e => .error (.refused e)) := by
  by_cases hclosing : kindAt lexemes p.index = some .closing
  · obtain ⟨l, hl, hkind⟩ := Option.map_eq_some_iff.mp hclosing
    rw [pass, if_pos hclosing]
    cases hphrase : Node.phrase frame.label frame.children frame.head with
    | ok n =>
        simp only [Except.bind]
        exact ⟨Nat.lt_succ_self _,
          remaining_of_step hl (by simp only [Reader.step, hkind, hphrase, Except.map])⟩
    | error e =>
        exact ⟨e, rfl,
          remaining_of_step_error hl (by simp only [Reader.step, hkind, hphrase, Except.map])⟩
  · rw [pass, if_neg hclosing]
    refine ⟨_, rfl, remaining_of_refused (fun l hl => ?_) fun _ => rfl⟩
    cases hkind : l.kind with
    | opening => exact absurd hkind (kind_ne_of_kindAt hopening hl)
    | closing => exact absurd hkind (kind_ne_of_kindAt hclosing hl)
    | word w =>
        have hchildren : frame.children ≠ [] :=
          fun hempty => kind_ne_of_kindAt (hword hempty w) hl hkind
        simp [Reader.step, hkind, hchildren]

/-- A parenthesis and a label open a phrase. -/
theorem remaining_of_label {stage : Stage} {label : List Char} (hawaits : Awaits stage around)
    (hopening : kindAt lexemes p.index = some .opening)
    (hlabel : kindAt lexemes (p.index + 1) = some (.word label)) :
    remaining lexemes text stage p =
      remaining lexemes text (.inside (Frame.over label [] []) around)
        { p with index := p.index + 2 } := by
  obtain ⟨l, hl, hlkind⟩ := Option.map_eq_some_iff.mp hopening
  obtain ⟨m, hm, hmkind⟩ := Option.map_eq_some_iff.mp hlabel
  rw [remaining_of_step hl (step_opening hawaits hlkind)]
  exact remaining_of_step hm (by simp only [Reader.step, hmkind]; rfl)

/-- Where the label is missing the descent is refused as the reader is. -/
theorem follows_unlabelled {stage : Stage} (hawaits : Awaits stage around)
    (hopening : kindAt lexemes p.index = some .opening)
    (hlabel : ∀ w, kindAt lexemes (p.index + 1) ≠ some (.word w)) :
    Follows lexemes text (remaining lexemes text stage p) around p
      ((difference (p.index + 2) 1).bind fun index =>
        .error (refuse lexemes index .expectedLabel)) := by
  obtain ⟨l, hl, hlkind⟩ := Option.map_eq_some_iff.mp hopening
  have hback : difference (p.index + 2) 1 = .ok (p.index + 1) := by simp [difference]
  rw [hback]
  refine ⟨_, rfl, (remaining_of_step hl (step_opening hawaits hlkind)).trans ?_⟩
  refine remaining_of_refused (fun m hm => ?_) fun _ => rfl
  cases hkind : m.kind with
  | word w => exact absurd (by rw [kindAt, hm, Option.map_some, hkind]) (hlabel w)
  | opening | closing => simp only [Reader.step, hkind]

end Agreement

section Levels

variable (lexemes : List Lexeme) (text : List Char)

/-- With this many levels a tree is read as by the reader, if there are more levels than lexemes. -/
def NodeFollows (depth : Nat) : Prop :=
  ∀ {stage : Stage} {around : List Frame} {p : Place}, Awaits stage around →
    (stage = .start ∨ kindAt lexemes p.index = some .opening) →
    lexemes.length - p.index < depth →
    Follows lexemes text (remaining lexemes text stage p) around p (node lexemes text depth p)

/-- With this many levels the rest of a phrase is read as by the reader, if there are more levels
than lexemes and one to spare. -/
def InsideFollows (depth : Nat) : Prop :=
  ∀ {frame : Frame} {around : List Frame} {p : Place},
    (frame.children = [] → ∀ w, kindAt lexemes p.index ≠ some (.word w)) →
    lexemes.length - p.index + 1 < depth →
    Follows lexemes text (remaining lexemes text (.inside frame around) p) around p
      (inside lexemes text depth frame p)

variable {lexemes text} {depth : Nat}

theorem lt_length_of_kindAt {index : Nat} {kind : LexemeKind}
    (h : kindAt lexemes index = some kind) : index < lexemes.length := by
  obtain ⟨l, hl, _⟩ := Option.map_eq_some_iff.mp h
  exact (List.getElem?_eq_some_iff.mp hl).1

/-- A tree is read as by the reader when the rest of its phrase is. -/
theorem nodeFollows_succ (hne : ∀ l ∈ lexemes, ∀ w, l.kind = .word w → w ≠ [])
    (h : InsideFollows lexemes text depth) : NodeFollows lexemes text (depth + 1) := by
  intro stage around p hawaits hstage hroom
  rw [node]
  by_cases hopening : kindAt lexemes p.index = some .opening
  · rw [if_pos hopening]
    split
    · next label hlabel =>
        rw [remaining_of_label hawaits hopening hlabel]
        split
        · next word hword =>
            obtain ⟨l, hl, hkind⟩ := Option.map_eq_some_iff.mp hword
            have hstep := step_word text label around p.cursor hkind
            rw [locate_eq (hne l (List.mem_of_getElem? hl) word hkind)]
            cases hlocate : Bracketed.locate text p.cursor word with
            | error e =>
                rw [hlocate] at hstep
                exact ⟨e, rfl, remaining_of_step_error hl hstep⟩
            | ok token =>
                rw [hlocate] at hstep
                exact (follows_worded (splitLabel label).1 (splitLabel label).2 token).of_eq
                  (by simp only; omega) (remaining_of_step hl hstep)
        · next hword =>
            have hindex := lt_length_of_kindAt hlabel
            exact (h (fun _ w hw => hword w hw) (by simp only; omega)).of_eq (by simp only; omega) rfl
    · next hlabel => exact follows_unlabelled hawaits hopening fun w hw => hlabel w hw
  · -- inside a phrase a tree is only read where one opens, so this is the beginning
    have hstart : stage = .start := hstage.resolve_right hopening
    subst hstart
    rw [if_neg hopening]
    refine ⟨_, rfl, remaining_of_refused (fun l hl => ?_) fun _ => rfl⟩
    cases hkind : l.kind with
    | opening => exact absurd hkind (kind_ne_of_kindAt hopening hl)
    | closing | word w => simp only [Reader.step, hkind]

/-- The rest of a phrase is read as by the reader when its next child is, and what is behind it. -/
theorem insideFollows_succ (hnode : NodeFollows lexemes text depth)
    (hinside : InsideFollows lexemes text depth) : InsideFollows lexemes text (depth + 1) := by
  intro frame around p hword hroom
  rw [inside]
  by_cases hopening : kindAt lexemes p.index = some .opening
  · rw [if_pos hopening]
    have hindex := lt_length_of_kindAt hopening
    have hchild := hnode (.inside frame around) (Or.inr hopening) (by omega)
    cases hread : node lexemes text depth p with
    | error stop =>
        rw [hread] at hchild
        exact hchild
    | ok r =>
        obtain ⟨⟨child, starred⟩, p'⟩ := r
        rw [hread] at hchild
        -- the child took a lexeme, which pays for the level that the rest of the phrase takes
        obtain ⟨hlt, hrest⟩ := hchild
        simp only [bind, Except.bind]
        by_cases hstarred : starred
        · rw [close, if_pos hstarred] at hrest
          rw [if_pos hstarred]
          by_cases hhead : frame.head.isSome
          · rw [if_pos hhead] at hrest ⊢
            exact ⟨_, rfl, hrest.trans (remaining_of_refused (fun _ _ => rfl) fun _ => rfl)⟩
          · rw [if_neg hhead] at hrest ⊢
            exact (hinside (by simp) (by omega)).of_eq (Nat.le_of_lt hlt) hrest
        · rw [close, if_neg hstarred] at hrest
          rw [if_neg hstarred]
          exact (hinside (by simp) (by omega)).of_eq (Nat.le_of_lt hlt) hrest
  · rw [if_neg hopening]
    exact follows_closing hopening hword

/-- **The descent follows the reader.**  With more levels than lexemes, trees and the rest of phrases
are read as by the reader. -/
theorem follows (hne : ∀ l ∈ lexemes, ∀ w, l.kind = .word w → w ≠ []) (depth : Nat) :
    NodeFollows lexemes text depth ∧ InsideFollows lexemes text depth := by
  induction depth with
  | zero => exact ⟨fun _ _ hroom => absurd hroom (by omega), fun _ hroom => absurd hroom (by omega)⟩
  | succ depth ih => exact ⟨nodeFollows_succ hne ih.2, insideFollows_succ ih.1 ih.2⟩

/-- Behind a finished tree the reader takes no more lexemes. -/
theorem remaining_finished (root : Node) (p : Place) :
    remaining lexemes text (.finished root) p =
      match lexemes[p.index]? with
      | some extra => .error (.malformed extra.position .trailingInput)
      | none => .ok (root, p.cursor) := by
  cases hl : lexemes[p.index]? with
  | none => exact remaining_of_end hl
  | some extra => exact remaining_of_step_error hl rfl

/-- A row of lexemes is read by descent as by the reader. -/
theorem readRow_eq (hne : ∀ l ∈ lexemes, ∀ w, l.kind = .word w → w ≠ []) (cursor : Nat) :
    readRow lexemes text cursor = (readLexemes lexemes text cursor).mapError .refused := by
  have hroot : Follows lexemes text (remaining lexemes text .start { index := 0, cursor }) []
      { index := 0, cursor } (node lexemes text (lexemes.length + 1) { index := 0, cursor }) :=
    (follows hne (lexemes.length + 1)).1 .start (Or.inl rfl) (by simp only; omega)
  have hreader : readLexemes lexemes text cursor =
      remaining lexemes text .start { index := 0, cursor } := readLexemes_eq_bind
  rw [readRow, hreader]
  cases hnode : node lexemes text (lexemes.length + 1) { index := 0, cursor } with
  | error stop =>
      rw [hnode] at hroot
      obtain ⟨e, rfl, hrest⟩ := hroot
      rw [hrest]
      rfl
  | ok r =>
      obtain ⟨⟨root, starred⟩, p⟩ := r
      rw [hnode] at hroot
      rw [hroot.2, close, remaining_finished]
      simp only [bind, Except.bind]
      cases lexemes[p.index]? <;> rfl

end Levels

/-- **The descent is safe on every input.**  Whatever the tree, the text and the offset to start
from, the descent cuts no text behind its end, takes no number from a smaller one and does not run
out of levels: it gives the tree that the reader gives, or is refused as by the reader. -/
theorem parse_eq (tree : String) (text : List Char) (cursor : Nat) :
    parse tree text cursor = (Bracketed.parse tree text cursor).mapError .refused := by
  refine readRow_eq (fun l hl word hword => ?_) cursor
  refine (spells_scanFrom 0 tree.toList).word_ne_nil word ?_
  exact List.mem_map.mpr ⟨l, hl, hword⟩

end Descent

end Bracketed

end MentionAlign
