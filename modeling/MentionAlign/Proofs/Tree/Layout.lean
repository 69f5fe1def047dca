import MentionAlign.Proofs.Span.Row
import MentionAlign.Tree.Node

/-!
# The layout of constituency trees

`Node.nodes` lists a tree in pre-order, and what a tree looks like over its text is said of each
node of that list.  A tree is `Nested` when every node encloses its children, and `WellLaid` when
every node fits its children: they stand in a row that fills the node from end to end, a terminal
has none of them, and a head position names one.

Three facts carry the head search.

* `Nested.find?_eq`: in a nested tree the search that prunes is a plain search of the list.
* `WellLaid.comesDown`: of two nodes of a well laid tree with equal offsets, one comes down to the
  other through only children.
* `WellLaid.terminalHead?_congr`: so all nodes with equal offsets have the same terminal head.
-/

namespace MentionAlign

namespace Node

mutual

/-- The nodes of a tree in pre-order. -/
def nodes : Node → List Node
  | ⟨label, span, children, headChild, token⟩ =>
      ⟨label, span, children, headChild, token⟩ :: nodesAmong children

/-- The nodes of several trees, one tree behind the other. -/
def nodesAmong : List Node → List Node
  | [] => []
  | n :: ns => n.nodes ++ nodesAmong ns

end

/-- What holds of a node when it holds of all its children holds of every node. -/
@[elab_as_elim]
theorem inductionOnChildren {motive : Node → Prop}
    (node : ∀ n : Node, (∀ c ∈ n.children, motive c) → motive n) : ∀ n, motive n
  | ⟨label, span, children, headChild, token⟩ =>
      node ⟨label, span, children, headChild, token⟩ fun c hc =>
        have : sizeOf c < sizeOf (Node.mk label span children headChild token) := by
          have hmem : sizeOf c < sizeOf children := List.sizeOf_lt_of_mem hc
          simp only [Node.mk.sizeOf_spec]
          omega
        inductionOnChildren node c
termination_by n => sizeOf n

/-- A tree is listed as its root and then its children's trees. -/
theorem nodes_eq (n : Node) : n.nodes = n :: nodesAmong n.children := by
  cases n
  rw [nodes]

theorem self_mem_nodes (n : Node) : n ∈ n.nodes := by
  rw [nodes_eq]
  exact List.mem_cons_self

/-- A node is listed among several trees when one of them lists it. -/
theorem mem_nodesAmong {m : Node} {ns : List Node} :
    m ∈ nodesAmong ns ↔ ∃ n ∈ ns, m ∈ n.nodes := by
  induction ns with
  | nil => simp [nodesAmong]
  | cons n ns ih => simp [nodesAmong, ih]

/-- A tree lists its root and what its children list. -/
theorem mem_nodes_iff {m n : Node} : m ∈ n.nodes ↔ m = n ∨ ∃ c ∈ n.children, m ∈ c.nodes := by
  rw [nodes_eq, List.mem_cons, mem_nodesAmong]

/-- What holds of all nodes of a tree holds of all nodes of its children. -/
theorem nodes_subset_of_mem_children {c n : Node} (hc : c ∈ n.children) :
    ∀ m ∈ c.nodes, m ∈ n.nodes :=
  fun _ hm => mem_nodes_iff.mpr (Or.inr ⟨c, hc, hm⟩)

/-- What a listed node lists is listed. -/
theorem mem_nodes_trans {l m n : Node} (hlm : l ∈ m.nodes) (hmn : m ∈ n.nodes) : l ∈ n.nodes := by
  induction n using inductionOnChildren with
  | node n ih =>
      rcases mem_nodes_iff.mp hmn with rfl | ⟨c, hc, hmc⟩
      · exact hlm
      · exact nodes_subset_of_mem_children hc l (ih c hc hmc)

/-! ### Pruned search -/

/-- Every node of the tree encloses its children. -/
def Nested (root : Node) : Prop :=
  ∀ n ∈ root.nodes, ∀ c ∈ n.children, n.span.encloses c.span

theorem Nested.child {root c : Node} (h : root.Nested) (hc : c ∈ root.children) : c.Nested :=
  fun n hn => h n (nodes_subset_of_mem_children hc n hn)

/-- The root of a nested tree encloses every node. -/
theorem Nested.encloses {root : Node} (h : root.Nested) :
    ∀ n ∈ root.nodes, root.span.start ≤ n.span.start ∧ n.span.stop ≤ root.span.stop := by
  induction root using inductionOnChildren with
  | node root ih =>
      intro n hn
      rcases mem_nodes_iff.mp hn with rfl | ⟨c, hc, hn⟩
      · exact ⟨Nat.le_refl _, Nat.le_refl _⟩
      · have hinner := ih c hc (h.child hc) n hn
        have houter := Span.encloses_iff.mp (h root root.self_mem_nodes c hc)
        omega

/-- The search of a tree is the search of its root, and then of the children it is pruned to. -/
theorem find?_eq_ite (span : Span) (n : Node) :
    n.find? span =
      if n.span == span then some n
      else if n.span.encloses span then findAmong? span n.children
      else none := by
  cases n
  rw [find?]

/-- A plain search of several trees is the first find among them. -/
theorem findAmong?_eq {span : Span} {ns : List Node}
    (h : ∀ n ∈ ns, n.find? span = n.nodes.find? fun m => m.span == span) :
    findAmong? span ns = (nodesAmong ns).find? fun m => m.span == span := by
  induction ns with
  | nil => rfl
  | cons n ns ih =>
      rw [findAmong?, nodesAmong, List.find?_append, h n List.mem_cons_self,
        ih fun m hm => h m (List.mem_cons_of_mem _ hm)]

/-- **Pruning loses nothing.**  In a nested tree the pruned search is the plain search of the
pre-order list. -/
theorem Nested.find?_eq {root : Node} (h : root.Nested) (span : Span) :
    root.find? span = root.nodes.find? fun m => m.span == span := by
  induction root using inductionOnChildren with
  | node root ih =>
      have hamong : findAmong? span root.children =
          (nodesAmong root.children).find? fun m => m.span == span :=
        findAmong?_eq fun c hc => ih c hc (h.child hc)
      rw [find?_eq_ite, nodes_eq, List.find?_cons, hamong]
      by_cases hself : root.span == span
      · simp [hself]
      · by_cases hinside : root.span.encloses span
        · simp [hself, hinside]
        · -- a node with these offsets would lie inside the root
          have hnone : (nodesAmong root.children).find? (fun m => m.span == span) = none := by
            apply List.find?_eq_none.mpr
            intro m hm hspan
            obtain ⟨c, hc, hmc⟩ := mem_nodesAmong.mp hm
            have hbounds := h.encloses m (nodes_subset_of_mem_children hc m hmc)
            have hoffsets := Span.beq_iff.mp hspan
            apply hinside
            apply Span.encloses_iff.mpr
            omega
          simp [hself, hinside, hnone]

/-! ### Terminal heads -/

/-- A terminal is its own terminal head. -/
theorem terminalHead?_of_token {n : Node} {token : Token} (h : n.token = some token) :
    n.terminalHead? = some n := by
  cases n
  subst h
  rw [terminalHead?]

/-- The terminal head at a position is that of the child there. -/
theorem terminalHeadAt?_eq (ns : List Node) (i : Nat) :
    terminalHeadAt? ns i = ns[i]?.bind terminalHead? := by
  induction ns generalizing i with
  | nil => simp [terminalHeadAt?]
  | cons n ns ih =>
      cases i with
      | zero => simp [terminalHeadAt?]
      | succ i => simpa [terminalHeadAt?] using ih i

/-- A phrase has the terminal head of its head child. -/
theorem terminalHead?_of_phrase {n : Node} (h : n.token = none) :
    n.terminalHead? = n.head?.bind terminalHead? := by
  obtain ⟨label, span, children, headChild, token⟩ := n
  subst h
  cases headChild with
  | some i =>
      rw [terminalHead?, terminalHeadAt?_eq]
      simp only [head?, headIndex?]
      by_cases hi : i < children.length
      · simp [hi]
      · simp [hi]
  | none =>
      match children with
      | [] => simp [terminalHead?, head?, headIndex?]
      | [c] => simp [terminalHead?, head?, headIndex?]
      | c :: d :: rest => simp [terminalHead?, head?, headIndex?]

/-- Whatever the tree, a terminal head carries a token. -/
theorem token_of_terminalHead? {n t : Node} (h : n.terminalHead? = some t) :
    ∃ token, t.token = some token := by
  induction n using inductionOnChildren with
  | node n ih =>
      cases hn : n.token with
      | some token =>
          rw [terminalHead?_of_token hn] at h
          exact ⟨token, Option.some.inj h ▸ hn⟩
      | none =>
          rw [terminalHead?_of_phrase hn] at h
          obtain ⟨c, hc, ht⟩ := Option.bind_eq_some_iff.mp h
          obtain ⟨i, _, hi⟩ := Option.bind_eq_some_iff.mp hc
          exact ih c (List.mem_of_getElem? hi) ht

/-- A terminal head stands in the tree that it heads. -/
theorem mem_nodes_of_terminalHead? {n t : Node} (h : n.terminalHead? = some t) : t ∈ n.nodes := by
  induction n using inductionOnChildren with
  | node n ih =>
      cases hn : n.token with
      | some token =>
          rw [terminalHead?_of_token hn] at h
          exact Option.some.inj h ▸ n.self_mem_nodes
      | none =>
          rw [terminalHead?_of_phrase hn] at h
          obtain ⟨c, hc, ht⟩ := Option.bind_eq_some_iff.mp h
          obtain ⟨i, _, hi⟩ := Option.bind_eq_some_iff.mp hc
          have hchild := List.mem_of_getElem? hi
          exact nodes_subset_of_mem_children hchild t (ih c hchild ht)

/-! ### Tokens -/

theorem tokens_of_phrase {n : Node} (h : n.token = none) : n.tokens = tokensAmong n.children := by
  cases n
  subst h
  rw [tokens]

theorem tokens_of_token {n : Node} {token : Token} (h : n.token = some token) :
    n.tokens = [token] := by
  cases n
  subst h
  rw [tokens]

/-- The tokens of several trees, one tree behind the other. -/
theorem tokensAmong_eq_flatMap (ns : List Node) : tokensAmong ns = ns.flatMap tokens := by
  induction ns with
  | nil => rfl
  | cons n ns ih => rw [tokensAmong, ih, List.flatMap_cons]

/-! ### Well laid trees -/

/-- A node fits its children. -/
structure Fits (n : Node) : Prop where
  /-- A terminal covers its token and has no children. -/
  terminal : ∀ token, n.token = some token → n.children = [] ∧ n.span = token.span
  /-- A phrase has children. -/
  phrase : n.token = none → n.children ≠ []
  /-- The children stand in a row that ends where the node ends, ... -/
  row : n.children ≠ [] → Span.InRow n.span.start (n.children.map Node.span) (n.span.stop + 1)
  /-- ... and begins where the node begins. -/
  starts : ∀ c ∈ n.children.head?, c.span.start = n.span.start
  /-- A head position names a child. -/
  head : ∀ i ∈ n.headChild, i < n.children.length

theorem fits_terminal (label : String) (token : Token) : (Node.terminal label token).Fits where
  terminal t ht := ⟨rfl, Option.some.inj ht ▸ rfl⟩
  phrase h := absurd h (by simp [Node.terminal])
  row h := absurd rfl h
  starts _ h := absurd h (by simp [Node.terminal])
  head _ h := absurd h (by simp [Node.terminal])

/-- Every node of the tree fits its children. -/
def WellLaid (root : Node) : Prop := ∀ n ∈ root.nodes, n.Fits

theorem WellLaid.child {root c : Node} (h : root.WellLaid) (hc : c ∈ root.children) :
    c.WellLaid :=
  fun n hn => h n (nodes_subset_of_mem_children hc n hn)

/-- Every node of a well laid tree heads a well laid tree. -/
theorem WellLaid.of_mem_nodes {root n : Node} (h : root.WellLaid) (hn : n ∈ root.nodes) :
    n.WellLaid :=
  fun m hm => h m (mem_nodes_trans hm hn)

/-- A node that fits its children encloses them. -/
theorem Fits.bounds {n c : Node} (h : n.Fits) (hc : c ∈ n.children) :
    n.span.start ≤ c.span.start ∧ c.span.stop ≤ n.span.stop := by
  have hbounds := (h.row (List.ne_nil_of_mem hc)).bounds c.span (List.mem_map_of_mem hc)
  omega

/-- The children of a node that fits them are disjoint, from left to right. -/
theorem Fits.ordered {n : Node} (h : n.Fits) :
    n.children.Pairwise fun c d => c.span.stop < d.span.start := by
  by_cases hempty : n.children = []
  · rw [hempty]
    exact .nil
  · exact List.pairwise_map.mp (h.row hempty).pairwise

/-- A well laid tree is nested. -/
theorem WellLaid.nested {root : Node} (h : root.WellLaid) : root.Nested :=
  fun n hn _ hc => Span.encloses_iff.mpr ((h n hn).bounds hc)

/-- Nodes that stand apart are the same when both enclose one span. -/
theorem eq_of_encloses_both {ns : List Node} {c d : Node} {span : Span}
    (hordered : ns.Pairwise fun c d => c.span.stop < d.span.start)
    (hc : c ∈ ns) (hd : d ∈ ns)
    (hcs : c.span.start ≤ span.start ∧ span.stop ≤ c.span.stop)
    (hds : d.span.start ≤ span.start ∧ span.stop ≤ d.span.stop) : c = d := by
  have hspan := span.start_le_stop
  induction ns with
  | nil => exact absurd hc List.not_mem_nil
  | cons n ns ih =>
      obtain ⟨hfirst, hrest⟩ := List.pairwise_cons.mp hordered
      rcases List.mem_cons.mp hc with rfl | hc'
      · rcases List.mem_cons.mp hd with rfl | hd'
        · rfl
        · have := hfirst d hd'
          omega
      · rcases List.mem_cons.mp hd with rfl | hd'
        · have := hfirst c hc'
          omega
        · exact ih hrest hc' hd'

/-- A child that covers all of a node is the only child. -/
theorem Fits.children_eq_singleton {n c : Node} (h : n.Fits) (hc : c ∈ n.children)
    (hstart : c.span.start ≤ n.span.start) (hstop : n.span.stop ≤ c.span.stop) :
    n.children = [c] := by
  obtain ⟨before, after, hsplit⟩ := List.append_of_mem hc
  have hordered := h.ordered
  rw [hsplit, List.pairwise_append, List.pairwise_cons] at hordered
  obtain ⟨_, ⟨hafter, _⟩, hbefore⟩ := hordered
  have hnoBefore : before = [] := by
    apply List.eq_nil_iff_forall_not_mem.mpr
    intro d hd
    have hapart := hbefore d hd c List.mem_cons_self
    have hbounds : n.span.start ≤ d.span.start ∧ d.span.stop ≤ n.span.stop :=
      h.bounds (by simp [hsplit, hd])
    have hspan := d.span.start_le_stop
    omega
  have hnoAfter : after = [] := by
    apply List.eq_nil_iff_forall_not_mem.mpr
    intro d hd
    have hapart := hafter d hd
    have hbounds : n.span.start ≤ d.span.start ∧ d.span.stop ≤ n.span.stop :=
      h.bounds (by simp [hsplit, hd])
    have hspan := d.span.start_le_stop
    omega
  rw [hsplit, hnoBefore, hnoAfter, List.nil_append]

/-- A node with one child has the terminal head of that child. -/
theorem Fits.terminalHead?_of_singleton {n c : Node} (h : n.Fits) (hc : n.children = [c]) :
    n.terminalHead? = c.terminalHead? := by
  have htoken : n.token = none := by
    cases htoken : n.token with
    | none => rfl
    | some token =>
        have := (h.terminal token htoken).1
        rw [hc] at this
        exact absurd this (List.cons_ne_nil _ _)
  have hhead : n.head? = some c := by
    cases hindex : n.headChild with
    | none => simp [head?, headIndex?, hindex, hc]
    | some i =>
        have hi : i < 1 := by simpa [hc] using h.head i hindex
        have hzero : i = 0 := by omega
        simp [head?, headIndex?, hindex, hc, hzero]
  rw [terminalHead?_of_phrase htoken, hhead]
  rfl

/-- A tree comes down to a node through nodes that have one child each. -/
inductive ComesDown : Node → Node → Prop
  | refl (n : Node) : ComesDown n n
  | child {n c m : Node} (only : n.children = [c]) (below : ComesDown c m) : ComesDown n m

/-- A well laid tree comes down to the nodes that cover all of it. -/
theorem WellLaid.comesDown_of_mem_nodes {root n : Node} (h : root.WellLaid) (hn : n ∈ root.nodes)
    (hspan : root.span == n.span) : root.ComesDown n := by
  induction root using inductionOnChildren with
  | node root ih =>
      rcases mem_nodes_iff.mp hn with rfl | ⟨c, hc, hnc⟩
      · exact .refl _
      · -- the child that the node stands under has to cover all of the root as well
        have hfits := h root root.self_mem_nodes
        have hoffsets := Span.beq_iff.mp hspan
        have hinside := (h.child hc).nested.encloses n hnc
        have houter := hfits.bounds hc
        have honly := hfits.children_eq_singleton hc (by omega) (by omega)
        exact .child honly (ih c hc (h.child hc) hnc (Span.beq_iff.mpr (by omega)))

/-- **Equal offsets, one chain.**  Of two nodes of a well laid tree that cover the same offsets, one
comes down to the other through only children. -/
theorem WellLaid.comesDown {root : Node} (h : root.WellLaid) :
    ∀ a ∈ root.nodes, ∀ b ∈ root.nodes, a.span == b.span →
      a.ComesDown b ∨ b.ComesDown a := by
  induction root using inductionOnChildren with
  | node root ih =>
      intro a ha b hb hspan
      have hoffsets := Span.beq_iff.mp hspan
      rcases mem_nodes_iff.mp ha with rfl | ⟨c, hc, hac⟩
      · exact Or.inl (h.comesDown_of_mem_nodes hb hspan)
      · rcases mem_nodes_iff.mp hb with rfl | ⟨d, hd, hbd⟩
        · exact Or.inr (h.comesDown_of_mem_nodes ha (Span.beq_iff.mpr (by omega)))
        · -- both stand under the same child, since children do not overlap
          have hca := (h.child hc).nested.encloses a hac
          have hdb := (h.child hd).nested.encloses b hbd
          have hsame : c = d :=
            eq_of_encloses_both (h root root.self_mem_nodes).ordered hc hd hca (by omega)
          subst hsame
          exact ih c hc (h.child hc) a hac b hbd hspan

/-- A node has the terminal head of the nodes that it comes down to. -/
theorem ComesDown.terminalHead?_eq {n m : Node} (h : n.ComesDown m) (hn : n.WellLaid) :
    n.terminalHead? = m.terminalHead? := by
  induction h with
  | refl n => rfl
  | @child n c m only _ ih =>
      rw [(hn n n.self_mem_nodes).terminalHead?_of_singleton only]
      exact ih (hn.child (only ▸ List.mem_cons_self))

/-- **Equal offsets, equal heads.**  Nodes of a well laid tree that cover the same offsets have the
same terminal head, or all of them have none. -/
theorem WellLaid.terminalHead?_congr {root : Node} (h : root.WellLaid) :
    ∀ a ∈ root.nodes, ∀ b ∈ root.nodes, a.span == b.span →
      a.terminalHead? = b.terminalHead? := by
  intro a ha b hb hspan
  rcases h.comesDown a ha b hb hspan with hdown | hup
  · exact hdown.terminalHead?_eq (h.of_mem_nodes ha)
  · exact (hup.terminalHead?_eq (h.of_mem_nodes hb)).symm

end Node

end MentionAlign
