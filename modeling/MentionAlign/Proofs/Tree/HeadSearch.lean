import MentionAlign.Proofs.Tree.Document

/-!
# Searching a document for a head

The head of a span is looked for in three steps that each leave something out: only the first
sentence that encloses the span is searched, subtrees that do not enclose it are skipped, and the
search stops at the first node with its offsets.  In a document of bracketed trees none of this is
seen from outside.  The sentences stand apart, so the first one is the only one; a nested tree loses
nothing by pruning; and nodes with equal offsets have equal terminal heads.
-/

namespace MentionAlign

namespace ParsedDocument

/-- All nodes of all sentences. -/
def nodes (doc : ParsedDocument) : List Node := doc.sentences.flatMap Node.nodes

/-- The sentences are well laid and stand apart from left to right. -/
structure WellLaid (doc : ParsedDocument) : Prop where
  sentence : ∀ root ∈ doc.sentences, root.WellLaid
  ordered : doc.sentences.Pairwise fun r s => r.span.stop < s.span.start

/-- A document of bracketed trees is well laid. -/
theorem wellLaid_of_ofBracketed {docId text : String} {trees : List String} {doc : ParsedDocument}
    (h : ofBracketed docId text trees = .ok doc) : doc.WellLaid := by
  obtain ⟨ds, next, _, hreads⟩ := exists_derivations_of_ofBracketed h
  exact ⟨hreads.laid, List.pairwise_map.mp hreads.row.pairwise⟩

section Search

variable {doc : ParsedDocument} {span : Span}

/-- A sentence encloses the offsets of its nodes. -/
theorem WellLaid.encloses {root n : Node} (h : doc.WellLaid) (hroot : root ∈ doc.sentences)
    (hn : n ∈ root.nodes) (hspan : n.span == span) : root.span.encloses span := by
  have hbounds := (h.sentence root hroot).nested.encloses n hn
  have hoffsets := Span.beq_iff.mp hspan
  apply Span.encloses_iff.mpr
  omega

/-- At most one sentence encloses a span. -/
theorem WellLaid.sentence_unique {r s : Node} (h : doc.WellLaid) (hr : r ∈ doc.sentences)
    (hs : s ∈ doc.sentences) (hrs : r.span.encloses span) (hss : s.span.encloses span) : r = s :=
  Node.eq_of_encloses_both h.ordered hr hs (Span.encloses_iff.mp hrs) (Span.encloses_iff.mp hss)

/-- The first sentence that encloses the offsets of a node is the one that the node stands in. -/
theorem WellLaid.sentenceOf?_eq {root n : Node} (h : doc.WellLaid) (hroot : root ∈ doc.sentences)
    (hn : n ∈ root.nodes) (hspan : n.span == span) : doc.sentenceOf? span = some root := by
  have hencloses := h.encloses hroot hn hspan
  cases hfirst : doc.sentenceOf? span with
  | none => exact absurd hencloses (List.find?_eq_none.mp hfirst root hroot)
  | some r =>
      have hr := List.mem_of_find?_eq_some hfirst
      have hrs := List.find?_some hfirst
      rw [h.sentence_unique hr hroot hrs hencloses]

/-- Nodes of a well laid document with equal offsets have equal terminal heads. -/
theorem WellLaid.terminalHead?_congr {m n : Node} (h : doc.WellLaid) (hm : m ∈ doc.nodes)
    (hn : n ∈ doc.nodes) (hms : m.span == span) (hns : n.span == span) :
    m.terminalHead? = n.terminalHead? := by
  obtain ⟨r, hr, hm⟩ := List.mem_flatMap.mp hm
  obtain ⟨s, hs, hn⟩ := List.mem_flatMap.mp hn
  obtain rfl : r = s :=
    h.sentence_unique hr hs (h.encloses hr hm hms) (h.encloses hs hn hns)
  have hmo := Span.beq_iff.mp hms
  have hno := Span.beq_iff.mp hns
  exact (h.sentence r hr).terminalHead?_congr m hm n hn (Span.beq_iff.mpr (by omega))

/-- **The search of a document.**  The sentence that is chosen and the pruned search in it find a
node with the offsets of a span whenever any sentence has one. -/
theorem WellLaid.search_eq_some {n : Node} (h : doc.WellLaid) (hn : n ∈ doc.nodes)
    (hspan : n.span == span) :
    ∃ root m, doc.sentenceOf? span = some root ∧ root.find? span = some m ∧
      m ∈ doc.nodes ∧ m.span == span := by
  obtain ⟨root, hroot, hn⟩ := List.mem_flatMap.mp hn
  have hplain := (h.sentence root hroot).nested.find?_eq span
  cases hfind : root.find? span with
  | none =>
      rw [hfind] at hplain
      exact absurd hspan (List.find?_eq_none.mp hplain.symm n hn)
  | some m =>
      rw [hfind] at hplain
      have hm := List.mem_of_find?_eq_some hplain.symm
      have hms := List.find?_some hplain.symm
      exact ⟨root, m, h.sentenceOf?_eq hroot hn hspan, hfind,
        List.mem_flatMap.mpr ⟨root, hroot, hm⟩, hms⟩

/-- A node that the search finds stands in the document and has the offsets of the span. -/
theorem WellLaid.search_sound {root m : Node} (h : doc.WellLaid)
    (hroot : doc.sentenceOf? span = some root) (hm : root.find? span = some m) :
    m ∈ doc.nodes ∧ m.span == span := by
  have hmem := List.mem_of_find?_eq_some hroot
  rw [(h.sentence root hmem).nested.find?_eq span] at hm
  have hms := List.find?_some hm
  exact ⟨List.mem_flatMap.mpr ⟨root, hmem, List.mem_of_find?_eq_some hm⟩, hms⟩

/-- The head token of a span is that of any node with its offsets. -/
theorem WellLaid.headToken?_eq_some_iff {token : Token} (h : doc.WellLaid) :
    doc.headToken? span = some token ↔
      ∃ n ∈ doc.nodes, n.span == span ∧
        ∃ terminal, n.terminalHead? = some terminal ∧ terminal.token = some token := by
  constructor
  · intro htoken
    obtain ⟨root, hroot, hrest⟩ := Option.bind_eq_some_iff.mp htoken
    obtain ⟨m, hm, hrest⟩ := Option.bind_eq_some_iff.mp hrest
    obtain ⟨terminal, hterminal, htoken⟩ := Option.bind_eq_some_iff.mp hrest
    obtain ⟨hmem, hspan⟩ := h.search_sound hroot hm
    exact ⟨m, hmem, hspan, terminal, hterminal, htoken⟩
  · intro hexists
    obtain ⟨n, hn, hspan, terminal, hterminal, htoken⟩ := hexists
    obtain ⟨root, m, hroot, hm, hmem, hms⟩ := h.search_eq_some hn hspan
    -- the search may stop at another node, but not at one with another head
    have hsame := h.terminalHead?_congr hmem hn hms hspan
    apply Option.bind_eq_some_iff.mpr
    refine ⟨root, hroot, Option.bind_eq_some_iff.mpr ⟨m, hm, Option.bind_eq_some_iff.mpr ?_⟩⟩
    exact ⟨terminal, hsame.trans hterminal, htoken⟩

end Search

/-- **The head search is exhaustive.**  In a document of bracketed trees all nodes with the offsets
of a span have the same terminal head, the span has a head exactly when there is such a node and its
terminal head exists, and the head then has the offsets and the text of that terminal's token. -/
theorem headOf_exhaustive {docId text : String} {trees : List String} {doc : ParsedDocument}
    (h : ofBracketed docId text trees = .ok doc) (span : Span) :
    (∀ m ∈ doc.nodes, ∀ n ∈ doc.nodes, m.span == span → n.span == span →
      m.terminalHead? = n.terminalHead?) ∧
    ((∃ head, doc.headOf span = some head) ↔
      ∃ n ∈ doc.nodes, n.span == span ∧ ∃ terminal, n.terminalHead? = some terminal) ∧
    ∀ head, doc.headOf span = some head ↔
      ∃ n ∈ doc.nodes, n.span == span ∧ ∃ terminal token,
        n.terminalHead? = some terminal ∧ terminal.token = some token ∧
        head = { token.span with text := some token.text } := by
  have hlaid := wellLaid_of_ofBracketed h
  have hhead : ∀ head, doc.headOf span = some head ↔
      ∃ n ∈ doc.nodes, n.span == span ∧ ∃ terminal token,
        n.terminalHead? = some terminal ∧ terminal.token = some token ∧
        head = { token.span with text := some token.text } := by
    intro head
    rw [headOf, Option.map_eq_some_iff]
    constructor
    · intro hfound
      obtain ⟨token, htoken, hcarried⟩ := hfound
      obtain ⟨n, hn, hspan, terminal, hterminal, htoken⟩ := hlaid.headToken?_eq_some_iff.mp htoken
      exact ⟨n, hn, hspan, terminal, token, hterminal, htoken, hcarried.symm⟩
    · intro hfound
      obtain ⟨n, hn, hspan, terminal, token, hterminal, htoken, hcarried⟩ := hfound
      exact ⟨token, hlaid.headToken?_eq_some_iff.mpr ⟨n, hn, hspan, terminal, hterminal, htoken⟩,
        hcarried.symm⟩
  refine ⟨fun m hm n hn hms hns => hlaid.terminalHead?_congr hm hn hms hns, ?_, hhead⟩
  constructor
  · intro hfound
    obtain ⟨head, hfound⟩ := hfound
    obtain ⟨n, hn, hspan, terminal, _, hterminal, _⟩ := (hhead head).mp hfound
    exact ⟨n, hn, hspan, terminal, hterminal⟩
  · intro hfound
    obtain ⟨n, hn, hspan, terminal, hterminal⟩ := hfound
    obtain ⟨token, htoken⟩ := Node.token_of_terminalHead? hterminal
    exact ⟨_, (hhead _).mpr ⟨n, hn, hspan, terminal, token, hterminal, htoken, rfl⟩⟩

/-- The verb heads the sentence, and a node of the sentence bears that out. -/
theorem headOf_exhaustive_dog_barks :
    ∃ doc head, ofBracketed "d" "dog barks" ["(S (NP (NN dog)) (VP* (VB barks)))"] = .ok doc ∧
      doc.headOf { start := 0, stop := 8 } = some head ∧
      head.start = 4 ∧ head.stop = 8 ∧ head.text = some "barks" ∧
      ∃ n ∈ doc.nodes, n.span == { start := 0, stop := 8 } ∧
        ∃ terminal, n.terminalHead? = some terminal := by
  have hfound : ((ofBracketed "d" "dog barks"
      ["(S (NP (NN dog)) (VP* (VB barks)))"]).toOption.bind
        fun doc => (doc.headOf { start := 0, stop := 8 }).map
          fun head => (head.start, head.stop, head.text)) = some (4, 8, some "barks") := by
    decide +kernel
  cases hdoc : ofBracketed "d" "dog barks" ["(S (NP (NN dog)) (VP* (VB barks)))"] with
  | error e =>
      rw [hdoc] at hfound
      exact absurd hfound (by simp [Except.toOption])
  | ok doc =>
      rw [hdoc] at hfound
      obtain ⟨head, hhead, hfields⟩ := Option.map_eq_some_iff.mp hfound
      obtain ⟨hstart, hrest⟩ := Prod.mk.inj hfields
      obtain ⟨hstop, htext⟩ := Prod.mk.inj hrest
      exact ⟨doc, head, rfl, hhead, hstart, hstop, htext,
        (headOf_exhaustive hdoc { start := 0, stop := 8 }).2.1.mp ⟨head, hhead⟩⟩

end ParsedDocument

end MentionAlign
