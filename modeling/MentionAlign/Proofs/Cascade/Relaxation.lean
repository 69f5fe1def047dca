import MentionAlign.Proofs.Cascade.Winner

/-!
# Head relaxation never loses a match

Narrowing response spans to their heads changes what half of the rules see, and it asks more of the
containment rule, so no single rule keeps its matches.  A block as a whole does.  Without an oracle
a rule passes only on nested spans (`Sight.nested_of_passes`), since the head of the response is
then its span.  With an oracle that narrows, the containment rule at the end of the same block
passes on all nested spans (`exists_matched_of_nested`), and the match comes from there or before.
-/

namespace MentionAlign

/-- **Without heads of responses only nested spans match.**  Where the head of the response is its
span and the gold head lies within the extent, a rule passes only if one span encloses the other. -/
theorem Sight.nested_of_passes {s : Sight} (hplain : s.head = s.span)
    (hgold : s.extent.encloses s.goldHead) (hsome : true ∈ s.verdicts) :
    s.span.encloses s.extent ∨ s.extent.encloses s.span := by
  have hwithin : s.Within := by
    refine ⟨?_, hgold⟩
    rw [hplain]
    exact Span.encloses_iff.mpr ⟨Nat.le_refl _, Nat.le_refl _⟩
  rcases hwithin.true_mem_verdicts_iff.mp hsome with houter | hinner | hsame
  · exact Or.inl houter
  · exact Or.inr hinner
  -- the response span has the offsets of the gold head
  · rw [hplain] at hsame
    exact Or.inr (Span.encloses_congr s.extent hsame ▸ hgold)

section Setup

variable {inventory : Inventory} {oracle : Option HeadOracle} {roles : RoleMap}
  {response : Response} {aligned : AlignedMention} {views : List SpanKind}

/-- A match without head relaxation names a view and a mention with nested spans. -/
theorem exists_nested_of_matched
    (hgold : ∀ m ∈ inventory.mentions, ∀ head ∈ m.head?, m.extent.encloses head)
    (h : (DocumentAligner.ofConfig { relaxWithHeads := false, views } inventory oracle roles).align
      response = .matched aligned) :
    ∃ kind, views[aligned.strategy / 10]? = some kind ∧ ∃ m ∈ inventory.mentions,
      (kind.extract response).encloses m.extent ∨ m.extent.encloses (kind.extract response) := by
  obtain ⟨s, winner, others, _, hkind, _, hmatching, _, hfirst⟩ := exists_winner_of_matched h
  have hwinner := hmatching ▸ List.mem_cons_self
  have hmem := (List.mem_filter.mp hwinner).1
  refine ⟨s.kind, hkind, winner, hmem, ?_⟩
  exact Sight.nested_of_passes rfl (encloses_headOrExtent (hgold winner hmem))
    (List.mem_of_getElem? (hfirst winner hwinner).passes)

/-- With an oracle that narrows, nested spans make the run match in the block of their view at the
latest: the containment rule closes the block. -/
theorem exists_matched_of_nested {oracle : HeadOracle} {kind : SpanKind} {m : GoldMention} {j : Nat}
    (horacle : oracle.Narrows) (hkind : views[j]? = some kind) (hm : m ∈ inventory.mentions)
    (hgold : ∀ head ∈ m.head?, m.extent.encloses head)
    (hnested :
      (kind.extract response).encloses m.extent ∨ m.extent.encloses (kind.extract response)) :
    ∃ found, (DocumentAligner.ofConfig { relaxWithHeads := true, views } inventory (some oracle)
      roles).align response = .matched found ∧ found.strategy / 10 ≤ j := by
  let aligner :=
    DocumentAligner.ofConfig { relaxWithHeads := true, views } inventory (some oracle) roles
  have hwithin : (kind.sight response m aligner.ctx).Within := by
    refine within_sight hgold fun o ho => ?_
    obtain rfl : oracle = o := Option.some.inj ho
    exact horacle
  obtain ⟨p, hp, hplace⟩ := exists_rule_at hkind (r := 9) (by omega)
  obtain rfl : containmentRule kind = p := Option.some.inj hp
  have hstrategy : aligner.strategies[10 * j + 9]? = _ :=
    (Config.strategies_eq { relaxWithHeads := true, views }).symm ▸ hplace
  have hcontained : (containmentRule kind).holds response m aligner.ctx := by
    rw [holds_containmentRule]
    exact hwithin.contained_iff.mpr hnested
  have hmatch : aligner.matching response
      { index := 10 * j + 9, kind, predicate := containmentRule kind } ≠ [] :=
    List.ne_nil_of_mem (List.mem_filter.mpr ⟨hm, hcontained⟩)
  obtain ⟨found, hfound, hle⟩ :=
    (DocumentAligner.indexed_ofConfig _ inventory _ roles).exists_matched_of_matching_ne_nil
      hstrategy hmatch
  exact ⟨found, hfound, by omega⟩

end Setup

/-- **Head relaxation never loses a match.**  Let annotated heads lie within their mentions.  If a
response has a match without head relaxation, it has one with head relaxation and the heads of a
document of bracketed trees, from the block of the same view or of one that comes before. -/
theorem align_with_heads_keeps_matches (inventory : Inventory) (roles : RoleMap)
    (views : List SpanKind) (response : Response) (oracle : Option HeadOracle)
    {docId text : String} {trees : List String} {doc : ParsedDocument}
    (hgold : ∀ m ∈ inventory.mentions, ∀ head ∈ m.head?, m.extent.encloses head)
    (hdoc : ParsedDocument.ofBracketed docId text trees = .ok doc) {aligned : AlignedMention}
    (h : (DocumentAligner.ofConfig { relaxWithHeads := false, views } inventory oracle roles).align
      response = .matched aligned) :
    ∃ found, (DocumentAligner.ofConfig { relaxWithHeads := true, views } inventory
        (some doc.headOf) roles).align response = .matched found ∧
      found.strategy / 10 ≤ aligned.strategy / 10 := by
  obtain ⟨kind, hkind, m, hm, hnested⟩ := exists_nested_of_matched hgold h
  have hnarrows := (ParsedDocument.wellLaid_of_ofBracketed hdoc).narrows
  exact exists_matched_of_nested hnarrows hkind hm (hgold m hm) hnested

/-- The response "the dog" is the annotated head of the mention "the dog barks".  Without heads the
second rule finds this; with heads the response is narrowed to "dog", and the fourth rule does. -/
theorem align_with_heads_keeps_the_dog :
    let span : Span := { start := 8, stop := 14 }
    let response : Response :=
      { docId := "d", eventType := "E", role := "Agent", argument := { text := "the dog", span } }
    let mention := GoldMention.entity
      { id := ⟨"m"⟩, entity := "E1", extent := { start := 8, stop := 20 }, head := span,
        role := "Agent" }
    let align := fun relaxWithHeads oracle =>
      (DocumentAligner.ofConfig { relaxWithHeads } { mentions := [mention] } oracle
        .identity).align response
    let found : AlignedMention := { mention := ⟨"m"⟩, scoringId := ⟨"E1"⟩, strategy := 1 }
    (∀ m ∈ [mention], ∀ head ∈ m.head?, m.extent.encloses head) ∧
    align false none = .matched found ∧
    ∃ doc, ParsedDocument.ofBracketed "d" "tonight the dog barks"
        ["(S (NP (DT the) (NN* dog)) (VP* (VB barks)))"] = .ok doc ∧
      align true (some doc.headOf) = .matched { found with strategy := 3 } ∧
      ∃ again, align true (some doc.headOf) = .matched again ∧
        again.strategy / 10 ≤ found.strategy / 10 := by
  intro span response mention align found
  have hgold : ∀ m ∈ [mention], ∀ head ∈ m.head?, m.extent.encloses head := by
    simp [mention, span, GoldMention.head?, GoldMention.extent, Span.encloses]
  have hstrict : align false none = .matched found := by decide +kernel
  have hrelaxed : ((ParsedDocument.ofBracketed "d" "tonight the dog barks"
      ["(S (NP (DT the) (NN* dog)) (VP* (VB barks)))"]).toOption.map fun doc =>
        align true (some doc.headOf)) = some (.matched { found with strategy := 3 }) := by
    decide +kernel
  obtain ⟨doc, hdoc, hthird⟩ := toOption_map_eq_some_iff.mp hrelaxed
  exact ⟨hgold, hstrict, doc, hdoc, hthird,
    align_with_heads_keeps_matches { mentions := [mention] } .identity _ response none hgold hdoc
      hstrict⟩

end MentionAlign
