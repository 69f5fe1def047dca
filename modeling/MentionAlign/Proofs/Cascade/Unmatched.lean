import MentionAlign.Proofs.Cascade.Blocks

/-!
# When nothing matches

An aligner finds nothing when no view and mention pass any of the ten rules
(`align_eq_unmatched_iff`).  Where annotated heads lie within their mentions and the heads of
responses come from bracketed trees, ten rules come down to two conditions on spans: one span
encloses the other, or the heads agree (`align_eq_unmatched_iff_apart`).
-/

namespace MentionAlign

section Setup

variable {config : Config} {inventory : Inventory} {oracle : Option HeadOracle} {roles : RoleMap}
  {response : Response}

/-- **No match.**  Nothing is found exactly when no verdict on any view and mention is positive. -/
theorem align_eq_unmatched_iff :
    (DocumentAligner.ofConfig config inventory oracle roles).align response = .unmatched ↔
      ∀ kind ∈ config.views, ∀ m ∈ inventory.mentions,
        true ∉ (kind.sight response m
          (DocumentAligner.ofConfig config inventory oracle roles).ctx).verdicts := by
  let aligner := DocumentAligner.ofConfig config inventory oracle roles
  have hwalk : aligner.align response = .unmatched ↔
      ∀ s ∈ config.strategies, aligner.matching response s = [] :=
    DocumentAligner.search_eq_unmatched_iff
  have hrow : ∀ s, aligner.matching response s = [] ↔
      ∀ m ∈ inventory.mentions, ¬ s.predicate.holds response m aligner.ctx :=
    fun _ => List.filter_eq_nil_iff
  have hchecks : ∀ p, p ∈ config.views.flatMap rules ↔
      ∃ s ∈ config.strategies, s.predicate = p := by
    intro p
    rw [config.strategies_eq, ← map_predicate_cascade, List.mem_map]
  refine hwalk.trans ⟨?_, ?_⟩
  · intro hnone kind hkind m hm hsome
    obtain ⟨p, hp, hholds⟩ := exists_rule_holds_iff.mpr hsome
    obtain ⟨s, hs, rfl⟩ := (hchecks p).mp (List.mem_flatMap.mpr ⟨kind, hkind, hp⟩)
    exact (hrow s).mp (hnone s hs) m hm hholds
  · intro hnone s hs
    apply (hrow s).mpr
    intro m hm hholds
    obtain ⟨kind, hkind, hp⟩ := List.mem_flatMap.mp ((hchecks s.predicate).mpr ⟨s, hs, rfl⟩)
    exact hnone kind hkind m hm (exists_rule_holds_iff.mp ⟨s.predicate, hp, hholds⟩)

/-- A mention encloses its head or extent when it encloses its annotated head. -/
theorem encloses_headOrExtent {m : GoldMention} (h : ∀ head ∈ m.head?, m.extent.encloses head) :
    m.extent.encloses m.headOrExtent := by
  cases hhead : m.head? with
  | none =>
      rw [GoldMention.headOrExtent, hhead]
      exact Span.encloses_iff.mpr ⟨Nat.le_refl _, Nat.le_refl _⟩
  | some head =>
      rw [GoldMention.headOrExtent, hhead]
      exact h head hhead

/-- What is seen of a response and a mention has both heads within their spans when the oracle
narrows and the annotated head lies within the mention. -/
theorem within_sight {kind : SpanKind} {m : GoldMention} {ctx : MatchContext}
    (hgold : ∀ head ∈ m.head?, m.extent.encloses head) (horacle : ∀ o ∈ ctx.oracle, o.Narrows) :
    (kind.sight response m ctx).Within where
  head := Span.encloses_resolve horacle
  goldHead := encloses_headOrExtent hgold

end Setup

/-- **No match in closed form.**  Let annotated heads lie within their mentions and let the oracle,
if there is one, be a document of bracketed trees.  Then nothing is found exactly when, for each
view and mention, neither of the two spans encloses the other and their heads differ.  Containment
is then nesting, its head guard never rejects, and a response that shares no offset with any mention
has no match. -/
theorem align_eq_unmatched_iff_apart (config : Config) (inventory : Inventory)
    (oracle : Option HeadOracle) (roles : RoleMap) (response : Response)
    (hgold : ∀ m ∈ inventory.mentions, ∀ head ∈ m.head?, m.extent.encloses head)
    (horacle : ∀ o ∈ oracle, ∃ docId text trees doc,
      ParsedDocument.ofBracketed docId text trees = .ok doc ∧ o = doc.headOf) :
    let aligner := DocumentAligner.ofConfig config inventory oracle roles
    let heads := if config.relaxWithHeads then oracle else none
    (aligner.align response = .unmatched ↔
      ∀ kind ∈ config.views, ∀ m ∈ inventory.mentions,
        ¬ (kind.extract response).encloses m.extent ∧ ¬ m.extent.encloses (kind.extract response) ∧
        ¬ (kind.extract response).resolve heads == m.headOrExtent) ∧
    (∀ kind, ∀ m ∈ inventory.mentions,
      ((containmentRule kind).holds response m aligner.ctx ↔
        (kind.extract response).encloses m.extent ∨ m.extent.encloses (kind.extract response))) ∧
    ((∀ kind ∈ config.views, ∀ m ∈ inventory.mentions, ¬ ∃ offset,
        ((kind.extract response).start ≤ offset ∧ offset ≤ (kind.extract response).stop) ∧
        (m.extent.start ≤ offset ∧ offset ≤ m.extent.stop)) →
      aligner.align response = .unmatched) := by
  intro aligner heads
  have hheads : ∀ o ∈ heads, o.Narrows := by
    intro o ho
    cases hrelax : config.relaxWithHeads with
    | false => exact absurd ho (by simp [heads, hrelax])
    | true =>
        obtain ⟨docId, text, trees, doc, hdoc, rfl⟩ := horacle o (by simpa [heads, hrelax] using ho)
        exact (ParsedDocument.wellLaid_of_ofBracketed hdoc).narrows
  have hwithin : ∀ kind : SpanKind, ∀ m ∈ inventory.mentions,
      (kind.sight response m aligner.ctx).Within :=
    fun _ m hm => within_sight (hgold m hm) hheads
  refine ⟨?_, ?_, ?_⟩
  · apply align_eq_unmatched_iff.trans
    apply forall₂_congr
    intro kind _
    apply forall₂_congr
    intro m hm
    rw [(hwithin kind m hm).true_mem_verdicts_iff, not_or, not_or]
    exact Iff.rfl
  · intro kind m hm
    rw [holds_containmentRule]
    exact (hwithin kind m hm).contained_iff
  · intro hapart
    apply align_eq_unmatched_iff.mpr
    intro kind hkind m hm hsome
    exact hapart kind hkind m hm ((hwithin kind m hm).shared_offset hsome)

/-- The phrase "the dog" overlaps the mention "dog barks" without nesting, so its head decides: it
is not the annotated head "barks", and it is the annotated head "dog". -/
theorem align_unmatched_the_dog_barks :
    let span : Span := { start := 0, stop := 6 }
    let response : Response :=
      { docId := "d", eventType := "E", role := "Agent", argument := { text := "the dog", span } }
    let mention := fun head : Span => GoldMention.entity
      { id := ⟨"m"⟩, entity := "E1", extent := { start := 4, stop := 12 }, head, role := "Agent" }
    let barks := mention { start := 8, stop := 12 }
    let dog := mention { start := 4, stop := 6 }
    (∀ m ∈ [barks, dog], ∀ head ∈ m.head?, m.extent.encloses head) ∧
    ∃ doc, ParsedDocument.ofBracketed "d" "the dog barks"
        ["(S (NP (DT the) (NN* dog)) (VP* (VB barks)))"] = .ok doc ∧
      let align := fun m =>
        (DocumentAligner.ofConfig .standard { mentions := [m] } (some doc.headOf) .identity).align
          response
      align barks = .unmatched ∧ align dog ≠ .unmatched := by
  intro span response mention barks dog
  have hgold : ∀ m ∈ [barks, dog], ∀ head ∈ m.head?, m.extent.encloses head := by
    simp [barks, dog, mention, GoldMention.head?, GoldMention.extent, Span.encloses]
  refine ⟨hgold, ?_⟩
  have hhead : ((ParsedDocument.ofBracketed "d" "the dog barks"
      ["(S (NP (DT the) (NN* dog)) (VP* (VB barks)))"]).toOption.map fun doc =>
        ((span.resolve doc.headOf).start, (span.resolve doc.headOf).stop)) = some (4, 6) := by
    decide +kernel
  cases hdoc : ParsedDocument.ofBracketed "d" "the dog barks"
      ["(S (NP (DT the) (NN* dog)) (VP* (VB barks)))"] with
  | error e =>
      rw [hdoc] at hhead
      exact absurd hhead (by simp [Except.toOption])
  | ok doc =>
      rw [hdoc] at hhead
      obtain ⟨hstart, hstop⟩ := Prod.mk.inj (Option.some.inj hhead)
      have hclosed := fun m hm => (align_eq_unmatched_iff_apart .standard { mentions := [m] }
        doc.headOf .identity response
        (fun n hn => List.mem_singleton.mp hn ▸ hgold m hm)
        (fun o ho => ⟨_, _, _, doc, hdoc, (Option.some.inj ho).symm⟩)).1
      refine ⟨doc, rfl, (hclosed barks (by simp)).mpr ?_, fun hnone => ?_⟩
      · intro kind _ m hm
        obtain rfl := List.mem_singleton.mp hm
        have hspan : kind.extract response = span := by cases kind <;> rfl
        rw [hspan]
        refine ⟨by decide, by decide, fun hsame => ?_⟩
        have hoffsets : (span.resolve doc.headOf).start = 8 := (Span.beq_iff.mp hsame).1
        omega
      · have hview : SpanKind.canonicalArgument ∈ Config.standard.views := List.mem_cons_self
        have hdiffer := ((hclosed dog (by simp)).mp hnone _ hview dog (by simp)).2.2
        exact hdiffer (Span.beq_iff.mpr ⟨hstart, hstop⟩)

end MentionAlign
