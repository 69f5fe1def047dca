import MentionAlign.Proofs.Tree.Layout

/-!
# What a pruned search finds

A node search goes down from the root, passes over every subtree whose root does not enclose the
query, and stops at the first node with its offsets.  `Node.lineages` lists a tree in pre-order with
the ancestors of each node beside it.  In every tree, however it was made, the search finds the
first node of that list that has the offsets of the query and whose ancestors all enclose it
(`Node.find?_eq_find?_lineages`).  Where every node encloses its children the ancestors of a node
with these offsets enclose the query anyway, so nothing is lost; where a child reaches out of its
parent the search may pass over it, but it never returns a node with other offsets.
-/

namespace MentionAlign

namespace Node

/-- A node of a tree with its ancestors, from the root down to its parent. -/
structure Lineage where
  ancestors : List Node
  node : Node

namespace Lineage

/-- The lineage of the same node when the root is put below a parent. -/
def below (parent : Node) (l : Lineage) : Lineage := { l with ancestors := parent :: l.ancestors }

/-- The node has the offsets of `span`, and its ancestors enclose it. -/
def LeadsTo (span : Span) (l : Lineage) : Prop :=
  (l.node.span == span) = true ∧ ∀ a ∈ l.ancestors, a.span.encloses span = true

instance (span : Span) (l : Lineage) : Decidable (l.LeadsTo span) :=
  inferInstanceAs (Decidable (_ ∧ _))

/-- Below one more parent, a lineage still leads to the spans that the parent encloses. -/
theorem leadsTo_below_iff {span : Span} {parent : Node} {l : Lineage} :
    (l.below parent).LeadsTo span ↔ parent.span.encloses span = true ∧ l.LeadsTo span := by
  simp only [LeadsTo, below, List.forall_mem_cons]
  exact and_left_comm

end Lineage

mutual

/-- The nodes of a tree in pre-order, each with its ancestors. -/
def lineages : Node → List Lineage
  | ⟨label, span, children, headChild, token⟩ =>
      ⟨[], ⟨label, span, children, headChild, token⟩⟩ ::
        (lineagesAmong children).map (Lineage.below ⟨label, span, children, headChild, token⟩)

/-- The same for several trees, one tree behind the other. -/
def lineagesAmong : List Node → List Lineage
  | [] => []
  | n :: ns => n.lineages ++ lineagesAmong ns

end

theorem lineages_eq (n : Node) :
    n.lineages = ⟨[], n⟩ :: (lineagesAmong n.children).map (Lineage.below n) := by
  cases n
  rw [lineages]

/-- The lineages of several trees end in their nodes if those of each tree do. -/
theorem map_node_lineagesAmong {ns : List Node}
    (h : ∀ n ∈ ns, n.lineages.map Lineage.node = n.nodes) :
    (lineagesAmong ns).map Lineage.node = nodesAmong ns := by
  induction ns with
  | nil => rfl
  | cons n ns ih =>
      obtain ⟨hn, hns⟩ := List.forall_mem_cons.mp h
      rw [lineagesAmong, nodesAmong, List.map_append, hn, ih hns]

/-- The lineages of a tree end in its nodes, in the same order. -/
theorem map_node_lineages (root : Node) : root.lineages.map Lineage.node = root.nodes := by
  induction root using inductionOnChildren with
  | node root ih =>
      have hbelow : Lineage.node ∘ Lineage.below root = Lineage.node := rfl
      rw [lineages_eq, nodes_eq, List.map_cons, List.map_map, hbelow, map_node_lineagesAmong ih]

/-- If each of several trees is searched for its first lineage, they are searched for the first of
all. -/
theorem findAmong?_eq_find?_lineages {span : Span} {ns : List Node}
    (h : ∀ n ∈ ns, n.find? span = (n.lineages.find? (·.LeadsTo span)).map Lineage.node) :
    findAmong? span ns = ((lineagesAmong ns).find? (·.LeadsTo span)).map Lineage.node := by
  induction ns with
  | nil => rfl
  | cons n ns ih =>
      obtain ⟨hn, hns⟩ := List.forall_mem_cons.mp h
      rw [findAmong?, lineagesAmong, List.find?_append, hn, ih hns, Option.map_or]

/-- **Where the search gets to.**  In every tree the search finds the first node in pre-order that
has the offsets of the query and whose ancestors all enclose it. -/
theorem find?_eq_find?_lineages (span : Span) (root : Node) :
    root.find? span = (root.lineages.find? (·.LeadsTo span)).map Lineage.node := by
  induction root using inductionOnChildren with
  | node root ih =>
      have hfirst : (Lineage.mk [] root).LeadsTo span ↔ (root.span == span) = true := by
        simp [Lineage.LeadsTo]
      rw [find?_eq_ite, lineages_eq, List.find?_cons]
      by_cases hself : root.span == span
      · simp [hfirst, hself]
      by_cases hinside : root.span.encloses span
      · have hbelow : ((fun l => decide (l.LeadsTo span)) ∘ Lineage.below root) =
            fun l => decide (l.LeadsTo span) := by
          funext l
          simp [Lineage.leadsTo_below_iff, hinside]
        simp [hfirst, hself, hinside, List.find?_map, hbelow, findAmong?_eq_find?_lineages ih,
          Function.comp_def, Lineage.below]
      · -- no lineage through the root leads to the query
        have hnone : ((lineagesAmong root.children).map (Lineage.below root)).find?
            (fun l => l.LeadsTo span) = none := by
          simp [Lineage.leadsTo_below_iff, hinside]
        simp [hfirst, hself, hinside, hnone]

/-- In every tree the search finds a node exactly when a lineage that leads to the query ends in it
and no earlier one leads there. -/
theorem find?_eq_some_iff_first_lineage {span : Span} {root n : Node} :
    root.find? span = some n ↔ n.span == span ∧ ∃ before ancestors after,
      root.lineages = before ++ ⟨ancestors, n⟩ :: after ∧
      (∀ a ∈ ancestors, a.span.encloses span) ∧ ∀ l ∈ before, ¬ l.LeadsTo span := by
  simp only [find?_eq_find?_lineages, Option.map_eq_some_iff, List.find?_eq_some_iff_append,
    decide_eq_true_eq, Bool.not_eq_true', decide_eq_false_iff_not]
  constructor
  · rintro ⟨⟨ancestors, _⟩, ⟨⟨hspan, hancestors⟩, before, after, hlineages, hbefore⟩, rfl⟩
    exact ⟨hspan, before, ancestors, after, hlineages, hancestors, hbefore⟩
  · rintro ⟨hspan, before, ancestors, after, hlineages, hancestors, hbefore⟩
    exact ⟨⟨ancestors, n⟩, ⟨⟨hspan, hancestors⟩, before, after, hlineages, hbefore⟩, rfl⟩

/-- **Pruning costs nested trees nothing, and no tree a wrong answer.**  In a tree in which every
node encloses its children the search finds the first node in pre-order with the offsets of the
query, and nothing when no node has them.  In every tree what it finds has these offsets and only
ancestors that enclose the query, and it is the first node in pre-order of which this is true. -/
theorem find?_is_first_in_preorder (root : Node) (span : Span) :
    (root.Nested →
      (∀ n, root.find? span = some n ↔ n.span == span ∧ ∃ before after,
        root.nodes = before ++ n :: after ∧ ∀ m ∈ before, ¬ m.span == span) ∧
      (root.find? span = none ↔ ∀ n ∈ root.nodes, ¬ n.span == span)) ∧
    root.lineages.map Lineage.node = root.nodes ∧
    ∀ n, root.find? span = some n ↔ n.span == span ∧ ∃ before ancestors after,
      root.lineages = before ++ ⟨ancestors, n⟩ :: after ∧
      (∀ a ∈ ancestors, a.span.encloses span) ∧ ∀ l ∈ before, ¬ l.LeadsTo span := by
  refine ⟨fun hnested => ?_, root.map_node_lineages, fun n => find?_eq_some_iff_first_lineage⟩
  rw [hnested.find?_eq]
  constructor
  · intro n
    simp only [List.find?_eq_some_iff_append, Bool.not_eq_true', Bool.not_eq_true]
  · exact List.find?_eq_none

/-- Of two siblings with the same offsets the first is found, and a word is found below a node that
carries a token itself.  A phrase that does not enclose its child passes it over. -/
theorem find?_is_first_in_preorder_twin_phrases :
    let word := Node.terminal "NN" { text := "ice", span := { start := 311, stop := 313 } }
    let twin := Node.terminal "NP" { text := "ice cream", span := { start := 311, stop := 319 } }
    let phrase := { twin with children := [word] }
    let cone := Node.terminal "NP" { text := "cream cone", span := { start := 315, stop := 324 } }
    let root : Node :=
      { label := "S", span := { start := 311, stop := 324 }, children := [phrase, twin, cone] }
    let narrow := { cone with children := [word] }
    root.Nested ∧ root.find? twin.span = some phrase ∧ root.find? word.span = some word ∧
      root.find? { start := 313, stop := 315 } = none ∧
      (∀ n ∈ root.nodes, ¬ n.span == { start := 313, stop := 315 }) ∧
      word ∈ narrow.nodes ∧ narrow.find? word.span = none := by
  intro word twin phrase cone root narrow
  have hnested : root.Nested := by
    unfold Nested
    decide
  have hphrase := (((root.find?_is_first_in_preorder twin.span).1 hnested).1 phrase).mpr
    ⟨rfl, [root], _, rfl, by decide⟩
  have hword := (((root.find?_is_first_in_preorder word.span).1 hnested).1 word).mpr
    ⟨rfl, [root, phrase], _, rfl, by decide⟩
  have hnone := ((root.find?_is_first_in_preorder { start := 313, stop := 315 }).1 hnested).2
  have hothers : ∀ n ∈ root.nodes, ¬ n.span == { start := 313, stop := 315 } := by decide
  have hbelow : word ∈ narrow.nodes :=
    nodes_subset_of_mem_children List.mem_cons_self word word.self_mem_nodes
  exact ⟨hnested, hphrase, hword, hnone.mpr hothers, hothers, hbelow, rfl⟩

end Node

end MentionAlign
