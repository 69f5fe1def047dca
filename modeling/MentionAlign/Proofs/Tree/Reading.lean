import MentionAlign.Proofs.Tree.Derivation
import MentionAlign.Proofs.Tree.Layout
import MentionAlign.Proofs.Tree.Placement

/-!
# Reading a derivation

The reader keeps the phrases that are still open in its stage and takes one lexeme at a time; a
derivation is a tree.  The two are brought together in both directions.

* A row of lexemes that a derivation yields is read to the tree of the derivation, provided that
  its words are located, and otherwise to the error of the first word that is not
  (`arrives_of_singleHeaded`, `halts_of_singleHeaded`).
* A row that is read to a tree is the yield of a derivation.  The invariant is `StageReads`: from
  the stage one can tell what has been read up to finished trees, whose derivations it supplies
  (`StageReads.step`, `StageReads.run`).

Both directions need the same account of how a finished node enters the phrase around it, which is
`close_over`.
-/

namespace MentionAlign

namespace Node

/-- Nodes in a row can be made the children of a phrase, which then fills the row. -/
theorem phrase_of_row (label : String) {children : List Node} {head : Option Nat} {lo hi : Nat}
    (hne : children ≠ []) (hrow : Span.InRow lo (children.map Node.span) hi)
    (hhead : ∀ i ∈ head, i < children.length) :
    ∃ span, Node.phrase label children head =
        .ok { label, span, children, headChild := head } ∧
      lo ≤ span.start ∧ span.stop + 1 = hi ∧
      Span.InRow span.start (children.map Node.span) (span.stop + 1) ∧
      ∀ c ∈ children.head?, c.span.start = span.start := by
  cases children with
  | nil => exact absurd rfl hne
  | cons first others =>
      obtain ⟨last, hlast⟩ : ∃ last, (first :: others).getLast? = some last :=
        ⟨_, List.getLast?_eq_some_getLast (List.cons_ne_nil _ _)⟩
      have hstop : last.span.stop + 1 = hi :=
        hrow.getLast (by rw [List.getLast?_map, hlast]; rfl)
      have hfirst := hrow.bounds first.span (by simp)
      have hordered : first.span.start ≤ last.span.stop := by
        have := first.span.start_le_stop
        omega
      have hinRange : head.filter ((first :: others).length ≤ ·) = none := by
        apply Option.filter_eq_none_iff.mpr
        intro i hi
        have := hhead i hi
        simpa using this
      refine ⟨⟨first.span.start, last.span.stop, none, hordered⟩, ?_, hfirst.1, hstop, ?_, ?_⟩
      · rw [Node.phrase, hlast]
        simp only [List.head?_cons, hinRange, Span.ofOffsets, hordered, ↓reduceDIte]
      · exact ⟨Nat.le_refl _, hstop ▸ hrow.2⟩
      · intro c hc
        obtain rfl : first = c := by simpa using hc
        rfl

/-- A phrase has children. -/
theorem children_ne_nil_of_phrase {label : String} {children : List Node} {head : Option Nat}
    {n : Node} (h : Node.phrase label children head = .ok n) : children ≠ [] := by
  intro hnil
  rw [hnil] at h
  exact absurd h (by simp [Node.phrase])

end Node

namespace Bracketed

/-! ### What has been read -/

/-- A derivation has been read to a node, with its words located at or behind an offset. -/
structure Reads (text : List Char) (cursor : Nat) (d : Derivation) (node : Node) (next : Nat) :
    Prop where
  mirrors : d.Mirrors node
  laid : node.WellLaid
  behind : cursor ≤ node.span.start
  stop : node.span.stop + 1 = next
  located : locateAll text cursor d.words = .ok (node.tokens, next)

/-- Derivations have been read to nodes one behind the other. -/
inductive ReadsAmong (text : List Char) : Nat → List Derivation → List Node → Nat → Prop
  | nil {cursor : Nat} : ReadsAmong text cursor [] [] cursor
  | cons {cursor middle next : Nat} {d : Derivation} {ds : List Derivation} {node : Node}
      {nodes : List Node} (first : Reads text cursor d node middle)
      (rest : ReadsAmong text middle ds nodes next) :
      ReadsAmong text cursor (d :: ds) (node :: nodes) next

section ReadsAmong

variable {text : List Char} {cursor next : Nat} {ds : List Derivation} {nodes : List Node}

theorem ReadsAmong.mirrors (h : ReadsAmong text cursor ds nodes next) :
    List.Forall₂ Derivation.Mirrors ds nodes := by
  induction h with
  | nil => exact .nil
  | cons first _ ih => exact .cons first.mirrors ih

theorem ReadsAmong.laid (h : ReadsAmong text cursor ds nodes next) :
    ∀ node ∈ nodes, node.WellLaid := by
  induction h with
  | nil => simp
  | cons first _ ih => exact List.forall_mem_cons.mpr ⟨first.laid, ih⟩

/-- The nodes stand in a row. -/
theorem ReadsAmong.row (h : ReadsAmong text cursor ds nodes next) :
    Span.InRow cursor (nodes.map Node.span) next := by
  induction h with
  | nil => exact rfl
  | cons first _ ih => exact ⟨first.behind, first.stop ▸ ih⟩

/-- Their words are located one behind the other. -/
theorem ReadsAmong.located (h : ReadsAmong text cursor ds nodes next) :
    locateAll text cursor (Derivation.wordsAmong ds) = .ok (Node.tokensAmong nodes, next) := by
  induction h with
  | nil => rfl
  | cons first _ ih =>
      rw [Derivation.wordsAmong, locateAll_append first.located, ih]
      rfl

end ReadsAmong

/-! ### Open phrases -/

/-- The open phrase with a label and the trees that have been read inside it. -/
def Frame.over (label : List Char) (done : List Derivation) (nodes : List Node) : Frame where
  label := (splitLabel label).1
  starred := (splitLabel label).2
  children := nodes
  head := done.findIdx? Derivation.starred

theorem splitLabel_label (d : Derivation) : splitLabel d.label = (d.bareLabel, d.starred) := by
  by_cases h : d.label.getLast? = some '*'
  · simp [splitLabel, Derivation.bareLabel, Derivation.starred, h]
  · simp [splitLabel, Derivation.bareLabel, Derivation.starred, h]

theorem splitLabel_terminal (label word : List Char) :
    splitLabel label =
      ((Derivation.terminal label word).bareLabel, (Derivation.terminal label word).starred) :=
  splitLabel_label (.terminal label word)

theorem splitLabel_phrase (label : List Char) (first : Derivation) (rest : List Derivation) :
    splitLabel label =
      ((Derivation.phrase label first rest).bareLabel,
        (Derivation.phrase label first rest).starred) :=
  splitLabel_label (.phrase label first rest)

/-- A finished node enters the phrase around it, unless it would be the second head there. -/
theorem close_over {label : List Char} {done : List Derivation} {nodes : List Node}
    {around : List Frame} {d : Derivation} {node : Node} (hlength : nodes.length = done.length)
    (hdone : done.countP Derivation.starred ≤ 1) :
    close node d.starred (Frame.over label done nodes :: around) =
      if (done ++ [d]).countP Derivation.starred ≤ 1 then
        .inside (Frame.over label (done ++ [d]) (nodes ++ [node])) around
      else .crowded (splitLabel label).1 := by
  have hindex : (done ++ [d]).findIdx? Derivation.starred =
      (done.findIdx? Derivation.starred).or (if d.starred then some done.length else none) := by
    by_cases hstar : d.starred <;> simp [List.findIdx?_append, List.findIdx?_cons, hstar]
  have hcount : (done ++ [d]).countP Derivation.starred =
      done.countP Derivation.starred + (if d.starred then 1 else 0) := by
    by_cases hstar : d.starred <;> simp [List.countP_append, hstar]
  rw [close, hcount]
  by_cases hstar : d.starred
  · -- the frame has a head exactly when a tree before this one is starred
    cases hhead : done.findIdx? Derivation.starred with
    | none =>
        have hzero : done.countP Derivation.starred = 0 := by
          apply List.countP_eq_zero.mpr
          simpa using List.findIdx?_eq_none_iff.mp hhead
        simp [Frame.over, hstar, hhead, hindex, hzero, hlength]
    | some i =>
        have hone : ¬ done.countP Derivation.starred + 1 ≤ 1 := by
          intro hle
          have hzero := List.countP_eq_zero.mp (Nat.le_zero.mp (Nat.le_of_succ_le_succ hle))
          have hnone : done.findIdx? Derivation.starred = none :=
            List.findIdx?_eq_none_iff.mpr (by simpa using hzero)
          rw [hhead] at hnone
          exact absurd hnone (by simp)
        simp only [Frame.over, hstar, hhead, ↓reduceIte, Option.isSome_some, if_neg hone]
  · simp [Frame.over, hstar, hindex, hdone]

/-! ### Runs of the reader -/

/-- The reader takes a row of lexemes. -/
def Reader.run (text : List Char) (r : Reader) (ls : List Lexeme) : Except TreeError Reader :=
  ls.foldlM (Reader.step text) r

section Runs

variable {text : List Char} {r r' : Reader} {l : Lexeme} {ls : List Lexeme} {e : TreeError}

theorem Reader.run_cons_of_ok (h : r.step text l = .ok r') :
    r.run text (l :: ls) = r'.run text ls := by
  rw [run, List.foldlM_cons, h]
  rfl

theorem Reader.run_cons_of_error (h : r.step text l = .error e) :
    r.run text (l :: ls) = .error e := by
  rw [run, List.foldlM_cons, h]
  rfl

theorem Reader.run_append_of_ok {before after : List Lexeme} (h : r.run text before = .ok r') :
    r.run text (before ++ after) = r'.run text after := by
  rw [run] at h
  rw [run, List.foldlM_append, h]
  rfl

theorem Reader.run_append_of_error {before after : List Lexeme}
    (h : r.run text before = .error e) : r.run text (before ++ after) = .error e := by
  rw [run] at h
  rw [run, List.foldlM_append, h]
  rfl

end Runs

/-- The stages that expect a tree, and the open phrases that it would stand in. -/
inductive Awaits : Stage → List Frame → Prop
  | start : Awaits .start []
  | inside (frame : Frame) (around : List Frame) : Awaits (.inside frame around) (frame :: around)

/-- Where a tree is expected a parenthesis opens it. -/
theorem step_opening {text : List Char} {stage : Stage} {around : List Frame} {cursor : Nat}
    {l : Lexeme} (hawaits : Awaits stage around) (hl : l.kind = .opening) :
    Reader.step text ⟨stage, cursor⟩ l = .ok ⟨.opened around, cursor⟩ := by
  cases hawaits with
  | start => simp only [Reader.step, hl]
  | inside frame around => simp only [Reader.step, hl]

/-- A parenthesis and a label open a phrase. -/
theorem run_label {text label : List Char} {stage : Stage} {around : List Frame} {cursor : Nat}
    {l m : Lexeme} {ls : List Lexeme} (hawaits : Awaits stage around)
    (hl : l.kind = .opening) (hm : m.kind = .word label) :
    Reader.run text ⟨stage, cursor⟩ (l :: m :: ls) =
      Reader.run text ⟨.inside (Frame.over label [] []) around, cursor⟩ ls := by
  rw [Reader.run_cons_of_ok (step_opening hawaits hl)]
  exact Reader.run_cons_of_ok (by simp [Reader.step, hm, Frame.over])

/-! ### From derivations to runs -/

/-- Where a tree is expected and the words of a derivation are located, its row is read to its
tree. -/
def Arrives (text : List Char) (d : Derivation) : Prop :=
  ∀ {ls : List Lexeme} {stage : Stage} {around : List Frame} {cursor next : Nat}
    {tokens : List Token}, ls.map Lexeme.kind = d.kinds → Awaits stage around →
    locateAll text cursor d.words = .ok (tokens, next) →
    ∃ node, Reads text cursor d node next ∧
      Reader.run text ⟨stage, cursor⟩ ls = .ok ⟨close node d.starred around, next⟩

/-- Where a tree is expected and a word of a derivation is lost, its row is not read further. -/
def Halts (text : List Char) (d : Derivation) : Prop :=
  ∀ {ls : List Lexeme} {stage : Stage} {around : List Frame} {cursor : Nat} {e : TreeError},
    ls.map Lexeme.kind = d.kinds → Awaits stage around →
    locateAll text cursor d.words = .error e →
    Reader.run text ⟨stage, cursor⟩ ls = .error e

section Children

variable {text : List Char} {ds : List Derivation} (label : List Char) (around : List Frame)

/-- A first tree inside an open phrase becomes its next child, unless it is a second head. -/
theorem Arrives.child {d : Derivation} {done : List Derivation} {nodes : List Node}
    {before : List Lexeme} {cursor next : Nat} {tokens : List Token} (h : Arrives text d)
    (hkinds : before.map Lexeme.kind = d.kinds) (hlength : nodes.length = done.length)
    (hcount : (done ++ d :: ds).countP Derivation.starred ≤ 1)
    (hlocated : locateAll text cursor d.words = .ok (tokens, next)) :
    ∃ node, Reads text cursor d node next ∧
      Reader.run text ⟨.inside (Frame.over label done nodes) around, cursor⟩ before =
        .ok ⟨.inside (Frame.over label (done ++ [d]) (nodes ++ [node])) around, next⟩ := by
  obtain ⟨node, hreads, hrun⟩ := h hkinds (.inside (Frame.over label done nodes) around) hlocated
  have hsplit : (done ++ d :: ds).countP Derivation.starred =
      (done ++ [d]).countP Derivation.starred + ds.countP Derivation.starred := by
    rw [← List.countP_append, List.append_assoc, List.singleton_append]
  have hdone : done.countP Derivation.starred ≤ 1 := by
    rw [List.countP_append] at hcount
    omega
  rw [close_over hlength hdone, if_pos (by omega)] at hrun
  exact ⟨node, hreads, hrun⟩

/-- Inside an open phrase, trees are read one after the other. -/
theorem run_children_of_located (harrives : ∀ d ∈ ds, Arrives text d) :
    ∀ (done : List Derivation) (nodes : List Node) {ls : List Lexeme} {cursor next : Nat}
      {tokens : List Token}, ls.map Lexeme.kind = Derivation.kindsAmong ds →
      nodes.length = done.length → (done ++ ds).countP Derivation.starred ≤ 1 →
      locateAll text cursor (Derivation.wordsAmong ds) = .ok (tokens, next) →
      ∃ more, ReadsAmong text cursor ds more next ∧
        Reader.run text ⟨.inside (Frame.over label done nodes) around, cursor⟩ ls =
          .ok ⟨.inside (Frame.over label (done ++ ds) (nodes ++ more)) around, next⟩ := by
  induction ds with
  | nil =>
      intro done nodes ls cursor next tokens hkinds _ _ hlocated
      obtain ⟨rfl, rfl⟩ := Prod.mk.inj (Except.ok.inj hlocated)
      obtain rfl : ls = [] := List.map_eq_nil_iff.mp hkinds
      exact ⟨[], .nil, by simp only [List.append_nil]; rfl⟩
  | cons d ds ih =>
      intro done nodes ls cursor next tokens hkinds hlength hcount hlocated
      obtain ⟨before, after, rfl, hbefore, hafter⟩ := List.map_eq_append_iff.mp hkinds
      obtain ⟨first, middle, rest, hfirst, hrest, _⟩ := locateAll_append_eq_ok hlocated
      obtain ⟨node, hreads, hrun⟩ :=
        Arrives.child label around (harrives d List.mem_cons_self) hbefore hlength hcount hfirst
      obtain ⟨more, hothers, hrunOthers⟩ :=
        ih (fun e he => harrives e (List.mem_cons_of_mem _ he)) (done ++ [d]) (nodes ++ [node])
          hafter (by simp [hlength])
          (by rwa [List.append_assoc, List.singleton_append]) hrest
      refine ⟨node :: more, .cons hreads hothers, ?_⟩
      rw [Reader.run_append_of_ok hrun, hrunOthers]
      simp only [List.append_assoc, List.singleton_append]

/-- Inside an open phrase, reading trees stops at the first word that is lost. -/
theorem run_children_of_lost (harrives : ∀ d ∈ ds, Arrives text d)
    (hhalts : ∀ d ∈ ds, Halts text d) :
    ∀ (done : List Derivation) (nodes : List Node) {ls : List Lexeme} {cursor : Nat}
      {e : TreeError}, ls.map Lexeme.kind = Derivation.kindsAmong ds →
      nodes.length = done.length → (done ++ ds).countP Derivation.starred ≤ 1 →
      locateAll text cursor (Derivation.wordsAmong ds) = .error e →
      Reader.run text ⟨.inside (Frame.over label done nodes) around, cursor⟩ ls = .error e := by
  induction ds with
  | nil =>
      intro done nodes ls cursor e _ _ _ hlost
      exact absurd hlost (by simp [Derivation.wordsAmong, locateAll])
  | cons d ds ih =>
      intro done nodes ls cursor e hkinds hlength hcount hlost
      obtain ⟨before, after, rfl, hbefore, hafter⟩ := List.map_eq_append_iff.mp hkinds
      rcases locateAll_append_eq_error hlost with hfirst | ⟨first, middle, hfirst, hrest⟩
      · exact Reader.run_append_of_error
          (hhalts d List.mem_cons_self hbefore (.inside _ around) hfirst)
      · obtain ⟨node, _, hrun⟩ :=
          Arrives.child label around (harrives d List.mem_cons_self) hbefore hlength hcount hfirst
        rw [Reader.run_append_of_ok hrun]
        exact ih (fun e he => harrives e (List.mem_cons_of_mem _ he))
          (fun e he => hhalts e (List.mem_cons_of_mem _ he)) (done ++ [d]) (nodes ++ [node])
          hafter (by simp [hlength])
          (by rwa [List.append_assoc, List.singleton_append]) hrest

end Children

/-- Inside an open phrase without children a word is located. -/
theorem step_word (text label : List Char) (around : List Frame) (cursor : Nat) {word : List Char}
    {l : Lexeme} (hl : l.kind = .word word) :
    Reader.step text ⟨.inside (Frame.over label [] []) around, cursor⟩ l =
      (locate text cursor word).map fun token =>
        ⟨.worded (splitLabel label).1 (splitLabel label).2 token around, token.span.stop + 1⟩ := by
  simp only [Reader.step, hl, Frame.over, List.isEmpty_nil, ↓reduceIte]

/-- A terminal whose word is located is read. -/
theorem arrives_terminal (text label word : List Char) :
    Arrives text (.terminal label word) := by
  intro ls stage around cursor next tokens hkinds hawaits hlocated
  rw [Derivation.kinds] at hkinds
  obtain ⟨l, _, rfl, hl, hkinds⟩ := List.map_eq_cons_iff.mp hkinds
  obtain ⟨m, _, rfl, hm, hkinds⟩ := List.map_eq_cons_iff.mp hkinds
  obtain ⟨n, _, rfl, hn, hkinds⟩ := List.map_eq_cons_iff.mp hkinds
  obtain ⟨k, _, rfl, hk, hkinds⟩ := List.map_eq_cons_iff.mp hkinds
  obtain rfl := List.map_eq_nil_iff.mp hkinds
  obtain ⟨token, rest, htoken, hrest, _⟩ := locateAll_cons_eq_ok_iff.mp hlocated
  obtain ⟨rfl, rfl⟩ := Prod.mk.inj (Except.ok.inj hrest)
  have hspelled : token.text = String.ofList word := text_of_locate htoken
  refine ⟨Node.terminal (Derivation.terminal label word).bareLabel token,
    ⟨.terminal hspelled, ?_, le_start_of_locate htoken, rfl,
      locateAll_cons_eq_ok_iff.mpr ⟨token, [], htoken, rfl, rfl⟩⟩, ?_⟩
  · intro node hnode
    obtain rfl : node = Node.terminal (Derivation.terminal label word).bareLabel token := by
      simpa [Node.nodes, Node.nodesAmong, Node.terminal] using hnode
    exact Node.fits_terminal _ token
  · have hworded := step_word text label around cursor hn
    rw [htoken, splitLabel_terminal label word] at hworded
    rw [run_label hawaits hl hm, Reader.run_cons_of_ok hworded]
    exact Reader.run_cons_of_ok (by simp only [Reader.step, hk])

/-- An open phrase that has been read to its end is closed as a tree. -/
theorem close_phrase {text : List Char} (label : List Char) {first : Derivation}
    {rest : List Derivation} {nodes : List Node} (around : List Frame) {cursor next : Nat}
    {l : Lexeme} (hl : l.kind = .closing) (h : ReadsAmong text cursor (first :: rest) nodes next) :
    ∃ node, Reads text cursor (.phrase label first rest) node next ∧
      Reader.step text ⟨.inside (Frame.over label (first :: rest) nodes) around, next⟩ l =
        .ok ⟨close node (Derivation.phrase label first rest).starred around, next⟩ := by
  have hne : nodes ≠ [] := by
    cases h
    exact List.cons_ne_nil _ _
  have hhead : ∀ i ∈ (first :: rest).findIdx? Derivation.starred, i < nodes.length := by
    intro i hi
    have := List.findIdx?_eq_some_iff_getElem.mp hi
    rw [← h.mirrors.length_eq]
    exact this.1
  obtain ⟨span, hphrase, hbehind, hstop, hrow, hstarts⟩ :=
    Node.phrase_of_row (Derivation.phrase label first rest).bareLabel hne h.row hhead
  refine ⟨_, ⟨.phrase h.mirrors, ?_, hbehind, hstop, ?_⟩, ?_⟩
  · intro node hnode
    rcases Node.mem_nodes_iff.mp hnode with rfl | ⟨c, hc, hnode⟩
    · exact ⟨fun token htoken => absurd htoken (by simp), fun _ => hne, fun _ => hrow, hstarts,
        hhead⟩
    · exact h.laid c hc node hnode
  · rw [Derivation.words_phrase]
    exact h.located
  · simp only [Reader.step, hl, Frame.over, splitLabel_phrase label first rest, hphrase,
      Except.map]

/-- A phrase whose children are read is read. -/
theorem arrives_phrase {text label : List Char} {first : Derivation} {rest : List Derivation}
    (hheads : (first :: rest).countP Derivation.starred ≤ 1)
    (harrives : ∀ d ∈ first :: rest, Arrives text d) :
    Arrives text (.phrase label first rest) := by
  intro ls stage around cursor next tokens hkinds hawaits hlocated
  rw [Derivation.kinds_phrase] at hkinds
  obtain ⟨l, _, rfl, hl, hkinds⟩ := List.map_eq_cons_iff.mp hkinds
  obtain ⟨m, _, rfl, hm, hkinds⟩ := List.map_eq_cons_iff.mp hkinds
  obtain ⟨inner, outer, rfl, hinner, houter⟩ := List.map_eq_append_iff.mp hkinds
  obtain ⟨k, _, rfl, hk, houter⟩ := List.map_eq_cons_iff.mp houter
  obtain rfl := List.map_eq_nil_iff.mp houter
  rw [Derivation.words_phrase] at hlocated
  obtain ⟨nodes, hreads, hrun⟩ := run_children_of_located label around harrives [] [] hinner rfl
    hheads hlocated
  obtain ⟨node, hnode, hclose⟩ := close_phrase label around hk hreads
  refine ⟨node, hnode, ?_⟩
  rw [run_label hawaits hl hm, Reader.run_append_of_ok hrun]
  exact Reader.run_cons_of_ok hclose

/-- **Completeness.**  The row of a derivation with at most one head in each phrase is read to its
tree when its words are located. -/
theorem arrives_of_singleHeaded (text : List Char) {d : Derivation} (h : d.SingleHeaded) :
    Arrives text d := by
  induction d using Derivation.inductionOnChildren with
  | terminal label word => exact arrives_terminal text label word
  | phrase label first rest ih =>
      cases h with
      | phrase heads inner => exact arrives_phrase heads fun d hd => ih d hd (inner d hd)

/-- **Refusal for a word.**  The row of such a derivation is refused for the first word that is
lost, and for nothing else. -/
theorem halts_of_singleHeaded (text : List Char) {d : Derivation} (h : d.SingleHeaded) :
    Halts text d := by
  induction d using Derivation.inductionOnChildren with
  | terminal label word =>
      intro ls stage around cursor e hkinds hawaits hlost
      rw [Derivation.kinds] at hkinds
      obtain ⟨l, _, rfl, hl, hkinds⟩ := List.map_eq_cons_iff.mp hkinds
      obtain ⟨m, _, rfl, hm, hkinds⟩ := List.map_eq_cons_iff.mp hkinds
      obtain ⟨n, _, rfl, hn, _⟩ := List.map_eq_cons_iff.mp hkinds
      rw [run_label hawaits hl hm]
      apply Reader.run_cons_of_error
      rw [step_word text label around cursor hn]
      cases hword : locate text cursor word with
      | error e' =>
          rw [Derivation.words, locateAll_cons_of_error hword] at hlost
          rw [Except.error.inj hlost]
          rfl
      | ok token =>
          rw [Derivation.words, locateAll_cons_of_ok hword] at hlost
          exact absurd hlost (by simp [locateAll, Except.map])
  | phrase label first rest ih =>
      cases h with
      | phrase heads inner =>
          intro ls stage around cursor e hkinds hawaits hlost
          rw [Derivation.kinds_phrase] at hkinds
          obtain ⟨l, _, rfl, hl, hkinds⟩ := List.map_eq_cons_iff.mp hkinds
          obtain ⟨m, _, rfl, hm, hkinds⟩ := List.map_eq_cons_iff.mp hkinds
          obtain ⟨row, outer, rfl, hrow, _⟩ := List.map_eq_append_iff.mp hkinds
          rw [Derivation.words_phrase] at hlost
          rw [run_label hawaits hl hm]
          apply Reader.run_append_of_error
          exact run_children_of_lost label around
            (fun d hd => arrives_of_singleHeaded text (inner d hd))
            (fun d hd => ih d hd (inner d hd)) [] [] hrow rfl heads hlost

/-! ### From runs to derivations -/

/-- A row of kinds that leaves the given phrases open, each of them over finished trees. -/
inductive FramesRead : List Frame → List LexemeKind → Prop
  | nil : FramesRead [] []
  | cons {around : List Frame} {ks : List LexemeKind} (label : List Char)
      (done : List Derivation) (nodes : List Node) (outer : FramesRead around ks)
      (length : nodes.length = done.length) (heads : done.countP Derivation.starred ≤ 1)
      (inner : ∀ d ∈ done, d.SingleHeaded) :
      FramesRead (Frame.over label done nodes :: around)
        (ks ++ .opening :: .word label :: Derivation.kindsAmong done)

/-- A row of kinds that leads to a stage.  A phrase with two heads is not followed further, since
no lexeme leads out of it. -/
inductive StageReads : Stage → List LexemeKind → Prop
  | start : StageReads .start []
  | opened {around : List Frame} {ks : List LexemeKind} (outer : FramesRead around ks) :
      StageReads (.opened around) (ks ++ [.opening])
  | inside {frame : Frame} {around : List Frame} {ks : List LexemeKind}
      (open_ : FramesRead (frame :: around) ks) : StageReads (.inside frame around) ks
  | worded {around : List Frame} {ks : List LexemeKind} (label word : List Char) (token : Token)
      (outer : FramesRead around ks) :
      StageReads (.worded (splitLabel label).1 (splitLabel label).2 token around)
        (ks ++ [.opening, .word label, .word word])
  | crowded (label : String) (ks : List LexemeKind) : StageReads (.crowded label) ks
  | finished {d : Derivation} (root : Node) (heads : d.SingleHeaded) :
      StageReads (.finished root) d.kinds

/-- A finished tree either ends the row or is read into the phrase around it. -/
theorem FramesRead.close {around : List Frame} {ks : List LexemeKind} {d : Derivation}
    (h : FramesRead around ks) (hd : d.SingleHeaded) (node : Node) :
    StageReads (close node d.starred around) (ks ++ d.kinds) := by
  cases h with
  | nil => exact .finished node hd
  | @cons around ks label done nodes outer length heads inner =>
      rw [close_over length heads]
      by_cases hcount : (done ++ [d]).countP Derivation.starred ≤ 1
      · rw [if_pos hcount]
        have hrow : (ks ++ .opening :: .word label :: Derivation.kindsAmong done) ++ d.kinds =
            ks ++ .opening :: .word label :: Derivation.kindsAmong (done ++ [d]) := by
          simp [Derivation.kindsAmong_append, Derivation.kindsAmong]
        rw [hrow]
        refine .inside
          (.cons label (done ++ [d]) (nodes ++ [node]) outer (by simp [length]) hcount ?_)
        intro e he
        rcases List.mem_append.mp he with he | he
        · exact inner e he
        · exact List.mem_singleton.mp he ▸ hd
      · rw [if_neg hcount]
        exact .crowded _ _

/-- A worded terminal that is closed is a finished tree. -/
theorem FramesRead.close_terminal {around : List Frame} {ks : List LexemeKind}
    (h : FramesRead around ks) (label word : List Char) (token : Token) :
    StageReads
      (Bracketed.close (Node.terminal (splitLabel label).1 token) (splitLabel label).2 around)
      (ks ++ [.opening, .word label, .word word, .closing]) := by
  rw [splitLabel_terminal label word]
  exact h.close (.terminal label word) _

/-- An open phrase that is closed is a finished tree, since a phrase without children is refused. -/
theorem FramesRead.close_phrase {around : List Frame} {ks : List LexemeKind} {label : List Char}
    {done : List Derivation} {nodes : List Node} {node : Node} (h : FramesRead around ks)
    (length : nodes.length = done.length) (heads : done.countP Derivation.starred ≤ 1)
    (inner : ∀ d ∈ done, d.SingleHeaded)
    (hphrase : Node.phrase (splitLabel label).1 nodes (done.findIdx? Derivation.starred) =
      .ok node) :
    StageReads (Bracketed.close node (splitLabel label).2 around)
      (ks ++ .opening :: .word label :: (Derivation.kindsAmong done ++ [.closing])) := by
  cases done with
  | nil =>
      exact absurd (List.eq_nil_of_length_eq_zero length) (Node.children_ne_nil_of_phrase hphrase)
  | cons first rest =>
      rw [splitLabel_phrase label first rest, ← Derivation.kinds_phrase]
      exact h.close (.phrase heads inner) node

/-- One lexeme more inside an open phrase. -/
theorem FramesRead.step {text : List Char} {frame : Frame} {around : List Frame} {cursor : Nat}
    {l : Lexeme} {r' : Reader} {ks : List LexemeKind} (h : FramesRead (frame :: around) ks)
    (hstep : Reader.step text ⟨.inside frame around, cursor⟩ l = .ok r') :
    StageReads r'.stage (ks ++ [l.kind]) := by
  cases hl : l.kind with
  | opening =>
      simp only [Reader.step, hl] at hstep
      exact Except.ok.inj hstep ▸ .opened h
  | closing =>
      cases h with
      | @cons around ks label done nodes outer length heads inner =>
          cases hphrase : Node.phrase (splitLabel label).1 nodes
              (done.findIdx? Derivation.starred) with
          | error e => simp [Reader.step, hl, Frame.over, hphrase, Except.map] at hstep
          | ok node =>
              simp only [Reader.step, hl, Frame.over, hphrase, Except.map] at hstep
              have hclosed := outer.close_phrase length heads inner hphrase
              simp only [List.append_assoc, List.cons_append]
              exact Except.ok.inj hstep ▸ hclosed
  | word w =>
      cases h with
      | @cons around ks label done nodes outer length heads inner =>
          cases nodes with
          | cons n ns => simp [Reader.step, hl, Frame.over] at hstep
          | nil =>
              obtain rfl : done = [] := List.eq_nil_of_length_eq_zero length.symm
              rw [step_word text label around cursor hl] at hstep
              cases hword : locate text cursor w with
              | error e => simp [hword, Except.map] at hstep
              | ok token =>
                  rw [hword] at hstep
                  have hworded := StageReads.worded label w token outer
                  simp only [Derivation.kindsAmong, List.append_assoc, List.cons_append,
                    List.nil_append]
                  exact Except.ok.inj hstep ▸ hworded

/-- One lexeme more leads one stage further. -/
theorem StageReads.step {text : List Char} {r r' : Reader} {l : Lexeme} {ks : List LexemeKind}
    (h : StageReads r.stage ks) (hstep : r.step text l = .ok r') :
    StageReads r'.stage (ks ++ [l.kind]) := by
  obtain ⟨stage, cursor⟩ := r
  cases h with
  | start =>
      cases hl : l.kind with
      | opening =>
          simp only [Reader.step, hl] at hstep
          exact Except.ok.inj hstep ▸ .opened .nil
      | closing => simp [Reader.step, hl] at hstep
      | word w => simp [Reader.step, hl] at hstep
  | @opened around ks outer =>
      cases hl : l.kind with
      | word w =>
          simp only [Reader.step, hl] at hstep
          have hnew := FramesRead.cons w [] [] outer rfl (by simp) (by simp)
          rw [List.append_assoc]
          exact Except.ok.inj hstep ▸ .inside hnew
      | opening => simp [Reader.step, hl] at hstep
      | closing => simp [Reader.step, hl] at hstep
  | inside hopen => exact hopen.step hstep
  | @worded around ks label word token outer =>
      cases hl : l.kind with
      | closing =>
          simp only [Reader.step, hl] at hstep
          rw [List.append_assoc]
          exact Except.ok.inj hstep ▸ outer.close_terminal label word token
      | opening => simp [Reader.step, hl] at hstep
      | word w => simp [Reader.step, hl] at hstep
  | crowded label ks => simp [Reader.step] at hstep
  | finished root heads => simp [Reader.step] at hstep

/-- A row of lexemes leads from stage to stage. -/
theorem StageReads.run {text : List Char} {r r' : Reader} {ls : List Lexeme}
    {ks : List LexemeKind} (h : StageReads r.stage ks) (hrun : r.run text ls = .ok r') :
    StageReads r'.stage (ks ++ ls.map Lexeme.kind) := by
  induction ls generalizing r ks with
  | nil =>
      obtain rfl : r = r' := Except.ok.inj hrun
      simpa using h
  | cons l ls ih =>
      cases hstep : r.step text l with
      | error e =>
          rw [Reader.run_cons_of_error hstep] at hrun
          exact absurd hrun (by simp)
      | ok next =>
          rw [Reader.run_cons_of_ok hstep] at hrun
          -- the row that has been read grows by the kind of each lexeme taken
          have := ih (h.step hstep) hrun
          rwa [List.append_assoc, List.singleton_append] at this

/-- **Soundness.**  A row that is read to a tree is the yield of a derivation with at most one head
in each phrase. -/
theorem exists_derivation_of_run {text : List Char} {cursor next : Nat} {ls : List Lexeme}
    {root : Node}
    (h : Reader.run text ⟨.start, cursor⟩ ls = .ok ⟨.finished root, next⟩) :
    ∃ d : Derivation, ls.map Lexeme.kind = d.kinds ∧ d.SingleHeaded := by
  have hreads : StageReads (.finished root) (ls.map Lexeme.kind) :=
    (StageReads.start : StageReads (⟨.start, cursor⟩ : Reader).stage []).run h
  generalize ls.map Lexeme.kind = ks at hreads
  cases hreads with
  | finished root heads => exact ⟨_, rfl, heads⟩

end Bracketed

end MentionAlign
