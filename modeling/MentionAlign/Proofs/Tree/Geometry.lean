import MentionAlign.Proofs.Data.Traversal
import MentionAlign.Proofs.Tree.Grammar

/-!
# The geometry of bracketed trees

Words are located from left to right and a phrase takes its span from its first and its last child
alone, and yet every node of a tree that is read covers its tokens from end to end, encloses all
that stands below it, and shares its offsets only with nodes that it comes down to, or that come
down to it, through only children.  The layout of trees carries this for the nodes; the row of
located words carries it for the root, which begins at or behind the offset that reading started
from and ends inside the text.
-/

namespace MentionAlign

namespace Node

/-- **A node covers its tokens.**  It begins where the first of them begins and ends where the last
of them ends. -/
theorem WellLaid.covers_tokens {n : Node} (h : n.WellLaid) :
    ∃ first last, n.tokens.head? = some first ∧ n.tokens.getLast? = some last ∧
      n.span.start = first.span.start ∧ n.span.stop = last.span.stop := by
  induction n using inductionOnChildren with
  | node n ih =>
      have hfits := h n n.self_mem_nodes
      cases htoken : n.token with
      | some token =>
          have hspan := (hfits.terminal token htoken).2
          rw [tokens_of_token htoken]
          exact ⟨token, token, rfl, rfl, by rw [hspan], by rw [hspan]⟩
      | none =>
          have hne := hfits.phrase htoken
          obtain ⟨c, hc⟩ : ∃ c, n.children.head? = some c :=
            ⟨_, List.head?_eq_some_head hne⟩
          obtain ⟨d, hd⟩ : ∃ d, n.children.getLast? = some d :=
            ⟨_, List.getLast?_eq_some_getLast hne⟩
          have hcmem := List.mem_of_head? hc
          have hdmem := List.mem_of_getLast? hd
          obtain ⟨first, _, hfirst, _, hstart, _⟩ := ih c hcmem (h.child hcmem)
          obtain ⟨_, last, _, hlast, _, hstop⟩ := ih d hdmem (h.child hdmem)
          have hleft : c.span.start = n.span.start := hfits.starts c hc
          have hright : d.span.stop + 1 = n.span.stop + 1 :=
            (hfits.row hne).getLast (by rw [List.getLast?_map, hd]; rfl)
          obtain ⟨others, hcons⟩ := List.head?_eq_some_iff.mp hc
          obtain ⟨front, hconcat⟩ := List.getLast?_eq_some_iff.mp hd
          rw [tokens_of_phrase htoken, tokensAmong_eq_flatMap]
          refine ⟨first, last, ?_, ?_, by omega, by omega⟩
          · rw [hcons, List.flatMap_cons, List.head?_append, hfirst]
            rfl
          · rw [hconcat, List.flatMap_append, List.flatMap_singleton, List.getLast?_append, hlast]
            rfl

/-- A node of a well laid tree is a terminal exactly when it has no children. -/
theorem Fits.isTerminal_iff {n : Node} (h : n.Fits) : n.isTerminal ↔ n.children = [] := by
  cases htoken : n.token with
  | some token => simp [isTerminal, htoken, (h.terminal token htoken).1]
  | none => simp [isTerminal, htoken, h.phrase htoken]

/-- A node of a well laid tree encloses all that stands below it. -/
theorem WellLaid.encloses {n : Node} (h : n.WellLaid) : ∀ m ∈ n.nodes, n.span.encloses m.span :=
  fun m hm => Span.encloses_iff.mpr (h.nested.encloses m hm)

end Node

namespace Bracketed

variable {tree : String} {text : List Char} {cursor next : Nat} {root : Node}

/-- The words of a tree that is read stand in the text at or behind the given offset, and the
offset returned is behind the last of them and not behind the end of the text. -/
theorem exists_ends_of_parse (h : parse tree text cursor = .ok (root, next)) :
    ∃ first last, root.tokens.head? = some first ∧ root.tokens.getLast? = some last ∧
      cursor ≤ first.span.start ∧ next = last.span.stop + 1 ∧ next ≤ text.length := by
  obtain ⟨d, hspells, _, hreads⟩ := exists_derivation_of_parse h
  obtain ⟨first, last, hfirst, hlast, hstart, _⟩ := hreads.laid.covers_tokens
  obtain ⟨_, hcovers⟩ := locateAll_covers hspells.words_ne_nil hreads.located
  have hbehind := hreads.behind
  have hnext : last.span.stop + 1 = next :=
    (locateAll_inRow hreads.located).getLast (by rw [List.getLast?_map, hlast]; rfl)
  have hinside := (hcovers last (List.mem_of_getLast? hlast)).1
  exact ⟨first, last, hfirst, hlast, by omega, hnext.symm, by omega⟩

/-- **The geometry of a tree that is read.**  Its words stand in the text, at or behind the offset
given and before the one returned.  Each node is a terminal exactly when it has no children, covers
its tokens from end to end, has its children apart in order, encloses all that stands below it, and
has a child where its head position points; and of two nodes with equal offsets one comes down to
the other through only children. -/
theorem geometry_of_parse (h : parse tree text cursor = .ok (root, next)) :
    (∃ first last, root.tokens.head? = some first ∧ root.tokens.getLast? = some last ∧
      cursor ≤ first.span.start ∧ next = last.span.stop + 1 ∧ next ≤ text.length) ∧
    (∀ n ∈ root.nodes,
      (n.isTerminal ↔ n.children = []) ∧
      (∃ first last, n.tokens.head? = some first ∧ n.tokens.getLast? = some last ∧
        n.span.start = first.span.start ∧ n.span.stop = last.span.stop) ∧
      n.children.Pairwise (fun c d => c.span.stop < d.span.start) ∧
      (∀ m ∈ n.nodes, n.span.encloses m.span) ∧
      ∀ i, n.headChild = some i → i < n.children.length) ∧
    ∀ a ∈ root.nodes, ∀ b ∈ root.nodes, a.span == b.span → a.ComesDown b ∨ b.ComesDown a := by
  obtain ⟨d, _, _, hreads⟩ := exists_derivation_of_parse h
  have hlaid := hreads.laid
  refine ⟨exists_ends_of_parse h, ?_, hlaid.comesDown⟩
  intro n hn
  have hfits := hlaid n hn
  have hinner := hlaid.of_mem_nodes hn
  exact ⟨hfits.isTerminal_iff, hinner.covers_tokens, hfits.ordered, hinner.encloses, hfits.head⟩

/-- Behind the first word of the text: the sentence covers its two words, and the phrase over the
noun alone shares its offsets with the noun. -/
theorem geometry_of_cats_purr :
    ∃ root, parse "(S (NP (NNS* cats)) (VP* (VBP purr)))" "Old cats purr.".toList 3 =
        .ok (root, 13) ∧
      (∃ first last, root.tokens.head? = some first ∧ root.tokens.getLast? = some last ∧
        root.span.start = first.span.start ∧ root.span.stop = last.span.stop) ∧
      ∃ np ∈ root.nodes, np.label = "NP" ∧ ∃ noun ∈ root.nodes, noun.label = "NNS" ∧
        (np.ComesDown noun ∨ noun.ComesDown np) := by
  have hresult : (parse "(S (NP (NNS* cats)) (VP* (VBP purr)))" "Old cats purr.".toList
      3).toOption.map (fun r => (r.1.nodes.map fun n => (n.label, n.span.start, n.span.stop), r.2)) =
        some ([("S", 4, 12), ("NP", 4, 7), ("NNS", 4, 7), ("VP", 9, 12), ("VBP", 9, 12)], 13) := by
    decide +kernel
  obtain ⟨⟨root, next⟩, hread, hfields⟩ := toOption_map_eq_some_iff.mp hresult
  obtain ⟨hlist, hnext⟩ := Prod.mk.inj hfields
  obtain rfl : next = 13 := hnext
  obtain ⟨_, hnodes, hequal⟩ := geometry_of_parse hread
  have hlisted : ∀ label, (label, 4, 7) ∈ root.nodes.map (fun n =>
      (n.label, n.span.start, n.span.stop)) → ∃ n ∈ root.nodes,
        (n.label, n.span.start, n.span.stop) = (label, 4, 7) := fun _ => List.mem_map.mp
  obtain ⟨np, hnp, hnpFields⟩ := hlisted "NP" (by simp [hlist])
  obtain ⟨noun, hnoun, hnounFields⟩ := hlisted "NNS" (by simp [hlist])
  obtain ⟨hnpLabel, hnpSpan⟩ := Prod.mk.inj hnpFields
  obtain ⟨hnounLabel, hnounSpan⟩ := Prod.mk.inj hnounFields
  have hspan : np.span == noun.span := Span.beq_iff.mpr (Prod.mk.inj (hnpSpan.trans hnounSpan.symm))
  exact ⟨root, hread, (hnodes root root.self_mem_nodes).2.1, np, hnp, hnpLabel, noun, hnoun,
    hnounLabel, hequal np hnp noun hnoun hspan⟩

end Bracketed

end MentionAlign
