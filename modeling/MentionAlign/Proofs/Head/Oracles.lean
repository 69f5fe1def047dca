import MentionAlign.Proofs.Tree.HeadSearch

/-!
# Properties of head oracles

Alignment asks a head oracle about response spans and compares the answers by their offsets.  Two
properties of oracles matter for what comes out.

* `HeadOracle.ReadsOffsets`: the answer, as far as offsets go, depends on the offsets of the query
  alone.  Tables of pairs and parsed documents are of this kind.
* `HeadOracle.Narrows`: the answer lies within the query.  This holds of documents of bracketed
  trees, whose terminal heads stand below the node that they head.
-/

namespace MentionAlign

namespace Span

/-- A span agrees with itself. -/
theorem beq_self (span : Span) : span == span := beq_iff.mpr ⟨rfl, rfl⟩

/-- Enclosing looks at offsets alone. -/
theorem encloses_congr {a b : Span} (outer : Span) (h : a == b) :
    outer.encloses a = outer.encloses b := by
  obtain ⟨hstart, hstop⟩ := beq_iff.mp h
  simp only [encloses, hstart, hstop]

/-- Agreeing looks at offsets alone. -/
theorem beq_congr {a b : Span} (other : Span) (h : a == b) : (other == a) = (other == b) := by
  obtain ⟨hstart, hstop⟩ := beq_iff.mp h
  simp only [BEq.beq, hstart, hstop]

end Span

namespace Node

/-- The pruned search looks at the offsets of the query alone. -/
theorem find?_congr {s t : Span} (h : s == t) (n : Node) : n.find? s = n.find? t := by
  induction n using inductionOnChildren with
  | node n ih =>
      -- the children from left to right, each by its own hypothesis
      have hamong : ∀ ns : List Node, (∀ c ∈ ns, c.find? s = c.find? t) →
          findAmong? s ns = findAmong? t ns := by
        intro ns hns
        induction ns with
        | nil => rfl
        | cons c ns ihns =>
            rw [findAmong?, findAmong?, hns c List.mem_cons_self,
              ihns fun d hd => hns d (List.mem_cons_of_mem _ hd)]
      rw [find?_eq_ite, find?_eq_ite, Span.beq_congr n.span h, Span.encloses_congr n.span h,
        hamong n.children ih]

end Node

namespace HeadOracle

/-- Queries with equal offsets get answers with equal offsets, or none of them gets one. -/
def ReadsOffsets (oracle : HeadOracle) : Prop := ∀ s t : Span, s == t → oracle s == oracle t

/-- An answer lies within the query. -/
def Narrows (oracle : HeadOracle) : Prop :=
  ∀ span head, oracle span = some head → span.encloses head

/-- An oracle that gives queries with equal offsets the same answer reads offsets. -/
theorem readsOffsets_of_eq {oracle : HeadOracle} (h : ∀ s t : Span, s == t → oracle s = oracle t) :
    oracle.ReadsOffsets := by
  intro s t hst
  rw [h s t hst]
  cases oracle t with
  | none => rfl
  | some head => exact head.beq_self

/-- A table of pairs reads offsets. -/
theorem readsOffsets_ofPairs (pairs : List (Span × Span)) : (ofPairs pairs).ReadsOffsets := by
  apply readsOffsets_of_eq
  intro s t hst
  have hquery : (fun pair : Span × Span => pair.1 == s) = fun pair => pair.1 == t :=
    funext fun pair => Span.beq_congr pair.1 hst
  rw [ofPairs, hquery]
  rfl

end HeadOracle

namespace ParsedDocument

/-- Whatever its trees, a parsed document reads offsets. -/
theorem readsOffsets_headOf (doc : ParsedDocument) : doc.headOf.ReadsOffsets := by
  apply HeadOracle.readsOffsets_of_eq
  intro s t hst
  have hsentence : doc.sentenceOf? s = doc.sentenceOf? t := by
    have hencloses : (fun root : Node => root.span.encloses s) = fun root => root.span.encloses t :=
      funext fun root => Span.encloses_congr root.span hst
    rw [sentenceOf?, hencloses]
    rfl
  have htoken : doc.headToken? s = doc.headToken? t := by
    unfold headToken?
    rw [hsentence]
    cases doc.sentenceOf? t with
    | none => rfl
    | some root => simp only [Option.bind_eq_bind, Option.bind_some, Node.find?_congr hst root]
  rw [headOf, headOf, htoken]

/-- **Heads lie within their constituent.**  In a well laid document an answer lies within the
query. -/
theorem WellLaid.narrows {doc : ParsedDocument} (h : doc.WellLaid) : doc.headOf.Narrows := by
  intro span head hhead
  obtain ⟨token, htoken, rfl⟩ := Option.map_eq_some_iff.mp hhead
  obtain ⟨n, hn, hspan, terminal, hterminal, htoken⟩ := h.headToken?_eq_some_iff.mp htoken
  obtain ⟨root, hroot, hn⟩ := List.mem_flatMap.mp hn
  have hlaid := (h.sentence root hroot).of_mem_nodes hn
  have hmem := Node.mem_nodes_of_terminalHead? hterminal
  have hcovers : terminal.span = token.span := ((hlaid terminal hmem).terminal token htoken).2
  have hinside := hlaid.nested.encloses terminal hmem
  rw [hcovers] at hinside
  have hoffsets := Span.beq_iff.mp hspan
  apply Span.encloses_iff.mpr
  show span.start ≤ token.span.start ∧ token.span.stop ≤ span.stop
  omega

end ParsedDocument

namespace Span

variable {oracle : Option HeadOracle} {span : Span}

/-- Spans with equal offsets resolve to spans with equal offsets. -/
theorem resolve_congr {s t : Span} (horacle : ∀ o ∈ oracle, o.ReadsOffsets) (h : s == t) :
    s.resolve oracle == t.resolve oracle := by
  cases oracle with
  | none => exact h
  | some o =>
      have hanswers := horacle o rfl s t h
      cases hs : o s <;> cases ht : o t <;> simp_all [resolve, refine, Refinement.orElse]

/-- A span encloses what it resolves to when the oracle narrows. -/
theorem encloses_resolve (horacle : ∀ o ∈ oracle, o.Narrows) :
    span.encloses (span.resolve oracle) := by
  have hself : span.encloses span := encloses_iff.mpr ⟨Nat.le_refl _, Nat.le_refl _⟩
  cases oracle with
  | none => exact hself
  | some o =>
      cases hhead : o span with
      | none => simpa [resolve, refine, Refinement.orElse, hhead] using hself
      | some head =>
          have hinside := horacle o rfl span head hhead
          simpa [resolve, refine, Refinement.orElse, hhead] using hinside

end Span

end MentionAlign
