import MentionAlign.Proofs.Tree.Layout

/-!
# Trees built from their parts

Trees need not come from the bracket notation: `Node.terminal` and `Node.phrase` make them from
tokens and from other trees.  A phrase is accepted when it has a child, its head position names one,
and its first child does not start behind the end of its last; what lies in between is not looked
at.  So a phrase encloses its children exactly when none of them starts before the first or ends
behind the last, which is called `Framed` here, and it is this that a search relies on when it skips
what does not enclose the span that it looks for.
-/

namespace MentionAlign

namespace Node

/-- A tree made of terminals and of phrases that were accepted. -/
inductive Built : Node → Prop
  | terminal (label : String) (token : Token) : Built (Node.terminal label token)
  | phrase {label : String} {children : List Node} {head : Option Nat} {n : Node}
      (inner : ∀ c ∈ children, Built c) (accepted : Node.phrase label children head = .ok n) :
      Built n

/-- No child starts before the first one or ends behind the last one. -/
def Framed (n : Node) : Prop :=
  ∀ first last, n.children.head? = some first → n.children.getLast? = some last →
    ∀ c ∈ n.children, first.span.start ≤ c.span.start ∧ c.span.stop ≤ last.span.stop

/-- A phrase that is accepted holds its children and reaches from the first of them to the last. -/
theorem ends_of_phrase {label : String} {children : List Node} {head : Option Nat} {n : Node}
    (h : Node.phrase label children head = .ok n) :
    n.children = children ∧ ∃ first last, children.head? = some first ∧
      children.getLast? = some last ∧ n.span.start = first.span.start ∧
      n.span.stop = last.span.stop := by
  unfold Node.phrase at h
  split at h
  · next first last hfirst hlast =>
      split at h
      · exact absurd h (by simp)
      · split at h
        · next span hspan =>
            obtain ⟨hstart, hstop, _⟩ := Span.ofOffsets_eq_ok_iff.mp hspan
            obtain rfl := Except.ok.inj h
            exact ⟨rfl, first, last, hfirst, hlast, hstart, hstop⟩
        · exact absurd h (by simp)
  · exact absurd h (by simp)

section Built

variable {root n : Node}

/-- The children of a built tree are built, and if there are any, the root reaches from the first of
them to the last. -/
theorem Built.parts (h : n.Built) :
    (∀ c ∈ n.children, c.Built) ∧ ∀ first last, n.children.head? = some first →
      n.children.getLast? = some last →
      n.span.start = first.span.start ∧ n.span.stop = last.span.stop := by
  cases h with
  | terminal label token => simp [Node.terminal]
  | phrase inner accepted =>
      obtain ⟨rfl, first, last, hfirst, hlast, hstart, hstop⟩ := ends_of_phrase accepted
      refine ⟨inner, fun c d hc hd => ?_⟩
      rw [hfirst] at hc
      rw [hlast] at hd
      obtain rfl := Option.some.inj hc
      obtain rfl := Option.some.inj hd
      exact ⟨hstart, hstop⟩

/-- Every node of a built tree heads a built tree. -/
theorem Built.of_mem_nodes (h : root.Built) (hn : n ∈ root.nodes) : n.Built := by
  induction root using inductionOnChildren with
  | node root ih =>
      rcases mem_nodes_iff.mp hn with rfl | ⟨c, hc, hnc⟩
      · exact h
      · exact ih c hc (h.parts.1 c hc) hnc

/-- The root of a built tree encloses its children exactly when they are framed. -/
theorem Built.encloses_children_iff (h : n.Built) :
    (∀ c ∈ n.children, n.span.encloses c.span) ↔ n.Framed := by
  have hends := h.parts.2
  constructor
  · intro hencloses first last hfirst hlast c hc
    obtain ⟨hstart, hstop⟩ := hends first last hfirst hlast
    have hbounds := Span.encloses_iff.mp (hencloses c hc)
    omega
  · intro hframed c hc
    have hne := List.ne_nil_of_mem hc
    have hfirst := List.head?_eq_some_head hne
    have hlast := List.getLast?_eq_some_getLast hne
    obtain ⟨hstart, hstop⟩ := hends _ _ hfirst hlast
    have hbounds := hframed _ _ hfirst hlast c hc
    exact Span.encloses_iff.mpr (by omega)

/-- A built tree is nested exactly when all its phrases are framed. -/
theorem Built.nested_iff (h : root.Built) : root.Nested ↔ ∀ n ∈ root.nodes, n.Framed :=
  forall₂_congr fun _ hn => (h.of_mem_nodes hn).encloses_children_iff

/-- A tree is nested exactly when every node encloses all that stands below it. -/
theorem nested_iff_encloses_nodes :
    root.Nested ↔ ∀ n ∈ root.nodes, ∀ m ∈ n.nodes, n.span.encloses m.span := by
  constructor
  · intro h n hn m hm
    have hinner : n.Nested := fun l hl => h l (mem_nodes_trans hl hn)
    exact Span.encloses_iff.mpr (hinner.encloses m hm)
  · intro h n hn c hc
    exact h n hn c (nodes_subset_of_mem_children hc c c.self_mem_nodes)

/-- In a nested tree the search for the span of a node finds a node. -/
theorem Nested.exists_find?_eq_some (h : root.Nested) (hn : n ∈ root.nodes) :
    ∃ m ∈ root.nodes, root.find? n.span = some m ∧ m.span == n.span := by
  rw [h.find?_eq]
  have hfound : (root.nodes.find? fun m => m.span == n.span).isSome :=
    List.find?_isSome.mpr ⟨n, hn, Span.beq_iff.mpr ⟨rfl, rfl⟩⟩
  obtain ⟨m, hm⟩ := Option.isSome_iff_exists.mp hfound
  have hspan := List.find?_some hm
  exact ⟨m, List.mem_of_find?_eq_some hm, hm, hspan⟩

/-- **When built trees are nested.**  In a tree made of terminals and accepted phrases every node
encloses all that stands below it exactly when no child of any phrase starts before the first child
or ends behind the last one, and then the span of every node leads the search to a node. -/
theorem Built.encloses_nodes_iff_framed (h : root.Built) :
    ((∀ n ∈ root.nodes, ∀ m ∈ n.nodes, n.span.encloses m.span) ↔
      ∀ n ∈ root.nodes, n.Framed) ∧
    ((∀ n ∈ root.nodes, n.Framed) → ∀ n ∈ root.nodes,
      ∃ m ∈ root.nodes, root.find? n.span = some m ∧ m.span == n.span) := by
  constructor
  · exact nested_iff_encloses_nodes.symm.trans h.nested_iff
  · intro hframed n hn
    exact (h.nested_iff.mpr hframed).exists_find?_eq_some hn

/-- A phrase whose middle children overlap the others is framed all the same, so each of its words
is found. -/
theorem encloses_nodes_of_overlapping_words :
    let words := [Node.terminal "JJ" { text := "ice", span := { start := 70, stop := 72 } },
      Node.terminal "HYPH" { text := "e-c", span := { start := 72, stop := 74 } },
      Node.terminal "JJ" { text := "cold", span := { start := 74, stop := 77 } }]
    ∃ root, Node.phrase "ADJP" words none = .ok root ∧ root.Built ∧
      (∀ n ∈ root.nodes, ∀ m ∈ n.nodes, n.span.encloses m.span) ∧
      ∀ word ∈ words, ∃ m ∈ root.nodes, root.find? word.span = some m ∧ m.span == word.span := by
  intro words
  obtain ⟨root, haccepted⟩ : ∃ root, Node.phrase "ADJP" words none = .ok root := ⟨_, rfl⟩
  have hchildren : root.children = words := (ends_of_phrase haccepted).1
  have hbuilt : root.Built := .phrase (by simp [words, Built.terminal]) haccepted
  have hwords : ∀ word ∈ words, word ∈ root.nodes := fun word hword =>
    nodes_subset_of_mem_children (hchildren ▸ hword) word word.self_mem_nodes
  have hframed : ∀ n ∈ root.nodes, n.Framed := by
    intro n hn
    rcases mem_nodes_iff.mp hn with rfl | ⟨c, hc, hnc⟩
    · simp [Framed, hchildren, words, Node.terminal]
    · have hbare : c.children = [] := by
        rw [hchildren] at hc
        simp only [words, List.mem_cons, List.not_mem_nil, or_false] at hc
        rcases hc with rfl | rfl | rfl <;> rfl
      rcases mem_nodes_iff.mp hnc with rfl | ⟨d, hd, _⟩
      · simp [Framed, hbare]
      · exact absurd hd (by simp [hbare])
  obtain ⟨hencloses, hfound⟩ := hbuilt.encloses_nodes_iff_framed
  exact ⟨root, haccepted, hbuilt, hencloses.mpr hframed,
    fun word hword => hfound hframed word (hwords word hword)⟩

/-- A phrase does not look at the children between its first and its last: one that stands behind
the last of them is not enclosed, and is not found. -/
theorem stray_middle_child_is_lost :
    let stray := Node.terminal "JJ" { text := "old", span := { start := 91, stop := 93 } }
    let words := [Node.terminal "DT" { text := "the", span := { start := 61, stop := 63 } }, stray,
      Node.terminal "NN" { text := "man", span := { start := 65, stop := 67 } }]
    ∃ root, Node.phrase "NP" words (some 2) = .ok root ∧ root.Built ∧ stray ∈ root.nodes ∧
      ¬ root.span.encloses stray.span ∧ root.find? stray.span = none := by
  intro stray words
  obtain ⟨root, haccepted⟩ : ∃ root, Node.phrase "NP" words (some 2) = .ok root := ⟨_, rfl⟩
  obtain ⟨hchildren, first, last, hfirst, hlast, hstart, hstop⟩ := ends_of_phrase haccepted
  have hbuilt : root.Built := .phrase (by simp [words, stray, Built.terminal]) haccepted
  have hstray : stray ∈ root.children := by simp [hchildren, words]
  have houtside : ¬ root.span.encloses stray.span := by
    obtain rfl := Option.some.inj hlast
    intro hencloses
    have := (Span.encloses_iff.mp hencloses).2
    rw [hstop] at this
    exact absurd this (by decide)
  refine ⟨root, haccepted, hbuilt, nodes_subset_of_mem_children hstray stray stray.self_mem_nodes,
    houtside, ?_⟩
  have hother : ¬ (root.span == stray.span) = true := by
    intro hspan
    have hoffsets := Span.beq_iff.mp hspan
    exact houtside (Span.encloses_iff.mpr (by omega))
  rw [find?_eq_ite, if_neg hother, if_neg houtside]

end Built

end Node

end MentionAlign
