import MentionAlign.Proofs.Data.Traversal
import MentionAlign.Proofs.Head.Oracles
import Mathlib.Data.List.Pairwise

/-!
# Resolving a span against a parse

A head that a parse answers with is again a span, and it can be asked about in turn.  The second
search starts anew: it chooses a sentence, stops at the outermost node over the single token, which
may stand several phrases above it, and follows head children down.

It comes back to the same token, because the terminal over that token is itself a node with the
offsets that are asked for (`WellLaid.headOf_token`), and nodes with equal offsets have equal heads.
So a span resolves to a token within it, and a resolved span to itself
(`resolve_narrows_and_settles`).
-/

namespace MentionAlign

namespace Span

variable {oracle : HeadOracle} {span head : Span}

theorem resolve_of_eq_some (h : oracle span = some head) : span.resolve oracle = head := by
  simp [resolve, refine, Refinement.orElse, h]

theorem resolve_of_eq_none (h : oracle span = none) : span.resolve oracle = span := by
  simp [resolve, refine, Refinement.orElse, h]

end Span

namespace Node

/-- A well laid tree lists the tokens of all its nodes: nothing stands below a terminal. -/
theorem WellLaid.mem_tokens {root n : Node} {token : Token} (h : root.WellLaid)
    (hn : n ∈ root.nodes) (htoken : n.token = some token) : token ∈ root.tokens := by
  induction root using inductionOnChildren with
  | node root ih =>
      rcases mem_nodes_iff.mp hn with rfl | ⟨c, hc, hnc⟩
      · rw [tokens_of_token htoken]
        exact List.mem_cons_self
      · have hphrase : root.token = none := by
          by_contra hterminal
          obtain ⟨other, hother⟩ := Option.ne_none_iff_exists'.mp hterminal
          have hbare := ((h root root.self_mem_nodes).terminal other hother).1
          rw [hbare] at hc
          exact List.not_mem_nil hc
        rw [tokens_of_phrase hphrase, tokensAmong_eq_flatMap]
        exact List.mem_flatMap.mpr ⟨c, hc, ih c hc (h.child hc) hnc⟩

end Node

namespace ParsedDocument

variable {doc : ParsedDocument}

theorem WellLaid.mem_tokens {n : Node} {token : Token} (h : doc.WellLaid) (hn : n ∈ doc.nodes)
    (htoken : n.token = some token) : token ∈ doc.tokens := by
  obtain ⟨root, hroot, hn⟩ := List.mem_flatMap.mp hn
  exact List.mem_flatMap.mpr ⟨root, hroot, (h.sentence root hroot).mem_tokens hn htoken⟩

/-- A terminal of a well laid document covers its token. -/
theorem WellLaid.span_eq_of_token {n : Node} {token : Token} (h : doc.WellLaid)
    (hn : n ∈ doc.nodes) (htoken : n.token = some token) : n.span = token.span := by
  obtain ⟨root, hroot, hn⟩ := List.mem_flatMap.mp hn
  exact ((h.sentence root hroot n hn).terminal token htoken).2

/-- **A token heads its own span**, however many phrases stand over it alone. -/
theorem WellLaid.headOf_token {n : Node} {token : Token} {span : Span} (h : doc.WellLaid)
    (hn : n ∈ doc.nodes) (htoken : n.token = some token) (hspan : token.span == span) :
    doc.headOf span = some { token.span with text := some token.text } := by
  have hcovers : n.span == span := by
    rw [h.span_eq_of_token hn htoken]
    exact hspan
  have hself : n.terminalHead? = some n := Node.terminalHead?_of_token htoken
  have hfound : doc.headToken? span = some token :=
    h.headToken?_eq_some_iff.mpr ⟨n, hn, hcovers, n, hself, htoken⟩
  rw [headOf, hfound]
  rfl

/-- A head is the span of a terminal's token, with the text of the token. -/
theorem WellLaid.exists_token_of_headOf {span head : Span} (h : doc.WellLaid)
    (hhead : doc.headOf span = some head) :
    ∃ n ∈ doc.nodes, ∃ token, n.token = some token ∧
      head = { token.span with text := some token.text } := by
  obtain ⟨token, htoken, hcarried⟩ := Option.map_eq_some_iff.mp hhead
  obtain ⟨n, hn, _, terminal, hterminal, htoken⟩ := h.headToken?_eq_some_iff.mp htoken
  -- the terminal stands below the node that it heads, so in the document
  obtain ⟨root, hroot, hn⟩ := List.mem_flatMap.mp hn
  have hbelow := Node.mem_nodes_trans (Node.mem_nodes_of_terminalHead? hterminal) hn
  exact ⟨terminal, List.mem_flatMap.mpr ⟨root, hroot, hbelow⟩, token, htoken, hcarried.symm⟩

/-- A head has itself as its head. -/
theorem WellLaid.headOf_head {span head : Span} (h : doc.WellLaid)
    (hhead : doc.headOf span = some head) : doc.headOf head = some head := by
  obtain ⟨n, hn, token, htoken, rfl⟩ := h.exists_token_of_headOf hhead
  exact h.headOf_token hn htoken (Span.beq_iff.mpr ⟨rfl, rfl⟩)

/-- Tokens that stand apart are the same when their offsets are. -/
theorem eq_of_span_beq {ts : List Token} {s t : Token}
    (hapart : ts.Pairwise fun s t => s.span.stop < t.span.start) (hs : s ∈ ts) (ht : t ∈ ts)
    (hspan : s.span == t.span) : s = t := by
  have hsame : ts.Pairwise fun s t => s.span == t.span → s = t := by
    refine hapart.imp ?_
    intro s t hbefore hspan
    have hoffsets := Span.beq_iff.mp hspan
    have hends := s.span.start_le_stop
    omega
  have hsymm : Std.Symm fun s t : Token => s.span == t.span → s = t := by
    refine ⟨fun s t hst hspan => (hst ?_).symm⟩
    have hoffsets := Span.beq_iff.mp hspan
    exact Span.beq_iff.mpr ⟨hoffsets.1.symm, hoffsets.2.symm⟩
  exact hsame.forall_of_forall (fun _ _ _ => rfl) hs ht hspan

/-- The tokens of a document of bracketed trees stand apart, in order. -/
theorem tokens_pairwise_of_ofBracketed {docId text : String} {trees : List String}
    (h : ofBracketed docId text trees = .ok doc) :
    doc.tokens.Pairwise fun s t => s.span.stop < t.span.start := by
  obtain ⟨ds, next, _, hreads⟩ := exists_derivations_of_ofBracketed h
  exact List.pairwise_map.mp (Bracketed.locateAll_inRow (locateAll_eq_tokens hreads)).pairwise

/-- **Resolution narrows and settles.**  Against a document of bracketed trees a span resolves to a
span within it.  If the document has a head for it, this is the span of exactly one token, with the
text of the token, and it is its own head.  In every case a resolved span resolves to itself. -/
theorem resolve_narrows_and_settles {docId text : String} {trees : List String}
    (h : ofBracketed docId text trees = .ok doc) (span : Span) :
    span.encloses (span.resolve doc.headOf) ∧
    (∀ head, doc.headOf span = some head →
      span.resolve doc.headOf = head ∧
      (∃ token ∈ doc.tokens, head = { token.span with text := some token.text } ∧
        ∀ other ∈ doc.tokens, other.span == head → other = token) ∧
      doc.headOf head = some head) ∧
    (span.resolve doc.headOf).resolve doc.headOf = span.resolve doc.headOf := by
  have hlaid := wellLaid_of_ofBracketed h
  refine ⟨?_, ?_, ?_⟩
  · apply Span.encloses_resolve
    rintro oracle ⟨⟩
    exact hlaid.narrows
  · intro head hhead
    refine ⟨Span.resolve_of_eq_some hhead, ?_, hlaid.headOf_head hhead⟩
    obtain ⟨n, hn, token, htoken, rfl⟩ := hlaid.exists_token_of_headOf hhead
    have hmem := hlaid.mem_tokens hn htoken
    refine ⟨token, hmem, rfl, ?_⟩
    intro other hother hspan
    exact eq_of_span_beq (tokens_pairwise_of_ofBracketed h) hother hmem hspan
  · cases hhead : doc.headOf span with
    | none => rw [Span.resolve_of_eq_none hhead, Span.resolve_of_eq_none hhead]
    | some head =>
        rw [Span.resolve_of_eq_some hhead]
        exact Span.resolve_of_eq_some (hlaid.headOf_head hhead)

/-- The verb heads the sentence from below two phrases that cover nothing else; asked for the head
of the verb, the document stops at the outer one and answers with the verb again. -/
theorem resolve_settles_dogs_barked :
    let trees := ["(S (NP (NNS dogs)) (VP* (VP (VBD barked))))"]
    let sentence : Span := { start := 0, stop := 10 }
    ∃ doc head, ofBracketed "d" "dogs barked" trees = .ok doc ∧
      doc.headOf sentence = some head ∧
      head.start = 5 ∧ head.stop = 10 ∧ head.text = some "barked" ∧
      sentence.encloses (sentence.resolve doc.headOf) ∧
      sentence.resolve doc.headOf = head ∧ doc.headOf head = some head := by
  intro trees sentence
  have hfound : ((ofBracketed "d" "dogs barked" trees).toOption.map fun doc =>
      (doc.headOf sentence).map fun head => (head.start, head.stop, head.text)) =
        some (some (5, 10, some "barked")) := by
    decide +kernel
  obtain ⟨doc, hdoc, hanswer⟩ := toOption_map_eq_some_iff.mp hfound
  obtain ⟨head, hhead, hfields⟩ := Option.map_eq_some_iff.mp hanswer
  obtain ⟨hstart, hrest⟩ := Prod.mk.inj hfields
  obtain ⟨hstop, htext⟩ := Prod.mk.inj hrest
  obtain ⟨hnarrows, hsettles, _⟩ := resolve_narrows_and_settles hdoc sentence
  obtain ⟨hresolved, _, hself⟩ := hsettles head hhead
  exact ⟨doc, head, hdoc, hhead, hstart, hstop, htext, hnarrows, hresolved, hself⟩

end ParsedDocument

end MentionAlign
