import MentionAlign.Proofs.Cascade.PrioritySearch
import MentionAlign.Proofs.Head.Oracles
import Mathlib.Data.List.Forall2

/-!
# What alignment cannot tell apart

Two responses are `Alike` when their roles and the offsets of their spans are the same, two mentions
when they also share their identifier and their scoring unit.  Texts under spans, documents, event
types, realis, justifications and the kind of a mention may differ.  Alignment has no means to tell
such data apart.

The argument goes from the leaves upward: an extracted span has the same offsets
(`ResponseView.extract_alike`), so a predicate has the same verdict (`Predicate.holds_alike`, by
induction on the predicate), so a strategy keeps mentions that are pairwise alike
(`DocumentAligner.matching_alike`), so a walk ends the same way (`DocumentAligner.search_alike`, by
induction on the row).  Only the name that an ambiguity gives to the response is left to differ.
-/

namespace MentionAlign

/-- Two responses with the same role and the same offsets. -/
structure Response.Alike (a b : Response) : Prop where
  role : a.role = b.role
  argument : a.argument.span == b.argument.span
  baseFiller : a.baseFiller == b.baseFiller

/-- Two mentions with the same identity, the same role and the same offsets. -/
structure GoldMention.Alike (m n : GoldMention) : Prop where
  id : m.id = n.id
  scoringId : m.scoringId = n.scoringId
  role : m.role = n.role
  extent : m.extent == n.extent
  headOrExtent : m.headOrExtent == n.headOrExtent

/-- Two oracles that answer every query with the same offsets. -/
def HeadOracle.Alike (first second : HeadOracle) : Prop := ∀ span, first span == second span

/-- Two contexts with the same role map and oracles that answer alike, by offsets alone. -/
structure MatchContext.Alike (ctx ctx' : MatchContext) : Prop where
  reads : ∀ o ∈ ctx.oracle, o.ReadsOffsets
  oracle : Option.Rel HeadOracle.Alike ctx.oracle ctx'.oracle
  roles : ctx.roles = ctx'.roles

/-- The same ambiguity under the name of another response. -/
def Ambiguity.attributedTo (responseId : String) (a : Ambiguity) : Ambiguity := { a with responseId }

/-- The same outcome with its ambiguity, if there is one, under the name of another response. -/
def Alignment.attributedTo (responseId : String) : Alignment → Alignment
  | .matched aligned =>
    .matched { aligned with ambiguity := aligned.ambiguity.map (Ambiguity.attributedTo responseId) }
  | .unmatched => .unmatched

section Spans

/-- Spans that agree with one span agree. -/
theorem Span.beq_trans {s t u : Span} (hst : s == t) (htu : t == u) : s == u := by
  have hleft := Span.beq_iff.mp hst
  have hright := Span.beq_iff.mp htu
  exact Span.beq_iff.mpr ⟨by omega, by omega⟩

/-- Spans that agree have the same verdict against spans that agree. -/
theorem Span.beq_alike {s s' t t' : Span} (hs : s == s') (ht : t == t') :
    (s == t) = (s' == t') := by
  obtain ⟨hstart, hstop⟩ := Span.beq_iff.mp hs
  obtain ⟨hstart', hstop'⟩ := Span.beq_iff.mp ht
  simp only [BEq.beq, hstart, hstop, hstart', hstop']

/-- One span resolves to the same offsets under oracles that answer alike. -/
theorem Span.resolve_alike {oracle oracle' : Option HeadOracle} (span : Span)
    (h : Option.Rel HeadOracle.Alike oracle oracle') :
    span.resolve oracle == span.resolve oracle' := by
  cases h with
  | none => exact span.beq_self
  | @some o o' hanswers =>
      have hanswer := hanswers span
      cases hfirst : o span <;> cases hsecond : o' span <;>
        simp_all [resolve, refine, Refinement.orElse, Span.beq_self]

end Spans

section Predicates

variable {a b : Response} {m n : GoldMention} {ctx ctx' : MatchContext}

/-- A kind of span shows the same offsets of responses that are alike. -/
theorem SpanKind.extract_alike (kind : SpanKind) (h : a.Alike b) :
    kind.extract a == kind.extract b := by
  cases kind with
  | canonicalArgument => exact h.argument
  | baseFiller => exact h.baseFiller

/-- A response view shows the same offsets of responses that are alike. -/
theorem ResponseView.extract_alike (view : ResponseView) (hresponse : a.Alike b)
    (hctx : ctx.Alike ctx') : view.extract a ctx.oracle == view.extract b ctx'.oracle := by
  have hspan := view.kind.extract_alike hresponse
  unfold ResponseView.extract
  cases view.headed with
  | false => exact hspan
  | true =>
      have hquery := Span.resolve_congr hctx.reads hspan
      have hanswer := Span.resolve_alike (view.kind.extract b) hctx.oracle
      exact Span.beq_trans hquery hanswer

/-- A gold view shows the same offsets of mentions that are alike. -/
theorem GoldView.extract_alike (view : GoldView) (h : m.Alike n) :
    view.extract m == view.extract n := by
  cases view with
  | extent => exact h.extent
  | headOrExtent => exact h.headOrExtent

/-- The containment check looks at offsets alone. -/
theorem Predicate.covers_alike {outer outer' inner inner' rh rh' gh gh' : Span}
    (houter : outer == outer') (hinner : inner == inner') (hrh : rh == rh') (hgh : gh == gh') :
    covers outer inner rh gh = covers outer' inner' rh' gh' := by
  obtain ⟨hstart, hstop⟩ := Span.beq_iff.mp houter
  have hencloses : ∀ span, outer.encloses span = outer'.encloses span := by
    intro span
    simp only [Span.encloses, hstart, hstop]
  simp only [covers, hencloses, Span.encloses_congr outer' hinner, Span.encloses_congr outer' hrh,
    Span.encloses_congr outer' hgh]

/-- **No predicate tells them apart.**  Whatever its shape, a predicate has the same verdict on data
that is alike. -/
theorem Predicate.holds_alike (p : Predicate) (hresponse : a.Alike b) (hmention : m.Alike n)
    (hctx : ctx.Alike ctx') : p.holds a m ctx = p.holds b n ctx' := by
  induction p with
  | exact view gold =>
      rw [holds_exact, holds_exact]
      exact Span.beq_alike (view.extract_alike hresponse hctx) (gold.extract_alike hmention)
  | containment responseExtent responseHead goldExtent goldHead =>
      have hre := responseExtent.extract_alike hresponse hctx
      have hrh := responseHead.extract_alike hresponse hctx
      have hge := goldExtent.extract_alike hmention
      have hgh := goldHead.extract_alike hmention
      simp only [holds, evaluate, covers_alike hre hge hrh hgh, covers_alike hge hre hrh hgh]
  | roleMatch =>
      rw [holds_roleMatch, holds_roleMatch, hctx.roles, hmention.role, hresponse.role]
  | both p q ihp ihq => rw [holds_both, holds_both, ihp, ihq]

end Predicates

section Matches

variable {mentions others : List GoldMention}

/-- Mentions that are alike make the same candidates. -/
theorem map_ofMention_alike (h : List.Forall₂ GoldMention.Alike mentions others) :
    mentions.map Candidate.ofMention = others.map Candidate.ofMention := by
  induction h with
  | nil => rfl
  | cons hmention _ ih =>
      rw [List.map_cons, List.map_cons, ih, Candidate.ofMention, hmention.id, hmention.scoringId]
      rfl

/-- Mentions that are alike belong to the same scoring units. -/
theorem scoringUnits_alike (h : List.Forall₂ GoldMention.Alike mentions others) :
    scoringUnits mentions = scoringUnits others := by
  have hunits : ∀ ms : List GoldMention,
      scoringUnits ms = ((ms.map Candidate.ofMention).map Candidate.scoringId).eraseDups := by
    intro ms
    rw [List.map_map]
    rfl
  rw [hunits, hunits, map_ofMention_alike h]

/-- The ambiguity of mentions that are alike is the same up to the name of the response. -/
theorem Ambiguity.among_alike (id id' : String)
    (h : List.Forall₂ GoldMention.Alike mentions others) :
    among id' others = (among id mentions).map (attributedTo id') := by
  unfold among
  rw [scoringUnits_alike h, map_ofMention_alike h]
  split <;> rfl

/-- What a strategy yields for mentions that are alike is the same up to the name of the
response. -/
theorem Strategy.verdict_alike (s : Strategy) (id id' : String)
    (h : List.Forall₂ GoldMention.Alike mentions others) :
    s.verdict id' others = (s.verdict id mentions).map fun aligned =>
      { aligned with ambiguity := aligned.ambiguity.map (Ambiguity.attributedTo id') } := by
  have hambiguity := Ambiguity.among_alike id id' h
  cases h with
  | nil => rfl
  | cons hmention _ =>
      simp only [verdict, Option.map_some, hambiguity, hmention.id, hmention.scoringId]

end Matches

namespace DocumentAligner

variable {first second : DocumentAligner} {a b : Response}

/-- A strategy keeps mentions that are pairwise alike. -/
theorem matching_alike (s : Strategy) (hresponse : a.Alike b) (hctx : first.ctx.Alike second.ctx)
    (hmentions : List.Forall₂ GoldMention.Alike first.inventory.mentions
      second.inventory.mentions) :
    List.Forall₂ GoldMention.Alike (first.matching a s) (second.matching b s) := by
  refine List.rel_filter (fun m n hmention => ?_) hmentions
  have hverdict := s.predicate.holds_alike hresponse hmention hctx
  exact Bool.eq_iff_iff.mp hverdict

/-- **No walk tells them apart.**  Over one row of strategies, data that is alike leads to the same
outcome up to the name of the response. -/
theorem search_alike (row : List Strategy) (hresponse : a.Alike b)
    (hctx : first.ctx.Alike second.ctx)
    (hmentions : List.Forall₂ GoldMention.Alike first.inventory.mentions
      second.inventory.mentions) :
    (second.search b row).1 = (first.search a row).1.attributedTo b.uniqueId := by
  induction row with
  | nil => rfl
  | cons s rest ih =>
      have hverdict := s.verdict_alike a.uniqueId b.uniqueId
        (matching_alike s hresponse hctx hmentions)
      cases hv : s.verdict a.uniqueId (first.matching a s) with
      | none =>
          rw [hv] at hverdict
          rw [search_cons_of_matching_eq_nil (Strategy.verdict_eq_none_iff.mp hv),
            search_cons_of_matching_eq_nil (Strategy.verdict_eq_none_iff.mp hverdict), ih]
      | some aligned =>
          rw [hv, Option.map_some] at hverdict
          rw [search_cons_of_verdict hv, search_cons_of_verdict hverdict]
          rfl

end DocumentAligner

/-- **Alignment sees offsets, roles and identities only.**  Let two responses, two inventories and
two oracles be alike, where the answers of an oracle depend on offsets alone, as those of a table of
pairs (`HeadOracle.readsOffsets_ofPairs`) and of a parsed document
(`ParsedDocument.readsOffsets_headOf`) do.  Then both alignments are the same in all but the name of
the response in the ambiguity. -/
theorem align_eq_attributedTo_of_alike (config : Config) (roles : RoleMap)
    (oracle oracle' : Option HeadOracle) (a b : Response) (X Y : Inventory)
    (hreads : ∀ o ∈ oracle, o.ReadsOffsets)
    (horacles : Option.Rel HeadOracle.Alike oracle oracle') (hresponses : a.Alike b)
    (hmentions : List.Forall₂ GoldMention.Alike X.mentions Y.mentions) :
    (DocumentAligner.ofConfig config Y oracle' roles).align b =
      ((DocumentAligner.ofConfig config X oracle roles).align a).attributedTo b.uniqueId := by
  have hctx : (DocumentAligner.ofConfig config X oracle roles).ctx.Alike
      (DocumentAligner.ofConfig config Y oracle' roles).ctx := by
    cases hrelax : config.relaxWithHeads with
    | true =>
        simp only [DocumentAligner.ofConfig, hrelax, if_true]
        exact { reads := hreads, oracle := horacles, roles := rfl }
    | false =>
        -- without head relaxation neither oracle is asked
        simp only [DocumentAligner.ofConfig, hrelax, Bool.false_eq_true, if_false]
        exact { reads := by simp, oracle := .none, roles := rfl }
  exact DocumentAligner.search_alike config.strategies hresponses hctx hmentions

/-- A table of heads and a parse that says the same, entities and fillers of the same names, and
responses from different documents: both alignments name the same two candidates. -/
theorem align_eq_attributedTo_the_dog :
    let dog : Span := { start := 14, stop := 16 }
    let phrase : Span := { start := 10, stop := 16 }
    let table := HeadOracle.ofPairs [(phrase, dog)]
    let parse : ParsedDocument :=
      { docId := "d"
        sentences := [
          { label := "NP", span := phrase, token := some { text := "dog", span := dog } }] }
    let a : Response :=
      { docId := "d", eventType := "E", role := "Agent",
        argument := { text := "the dog", span := phrase } }
    let b : Response :=
      { docId := "e", eventType := "F", role := "Agent", realis := .generic,
        argument := { text := "", span := { phrase with text := some "the dog" } } }
    let entities := ["m", "n"].map fun id =>
      GoldMention.entity { id := ⟨id⟩, entity := id, extent := dog, role := "Agent" }
    let fillers := ["m", "n"].map fun id =>
      GoldMention.filler { id := ⟨id⟩, extent := { dog with text := some "dog" }, role := "Agent" }
    let found := fun responseId => Alignment.matched
      { mention := ⟨"m"⟩, scoringId := ⟨"m"⟩, strategy := 1,
        ambiguity := some { responseId, candidates := [⟨⟨"m"⟩, ⟨"m"⟩⟩, ⟨⟨"n"⟩, ⟨"n"⟩⟩] } }
    table.Alike parse.headOf ∧ a.Alike b ∧ List.Forall₂ GoldMention.Alike entities fillers ∧
    (DocumentAligner.ofConfig .standard ⟨entities⟩ (some table) .identity).align a =
      found a.uniqueId ∧
    (DocumentAligner.ofConfig .standard ⟨fillers⟩ (some parse.headOf) .identity).align b =
      found b.uniqueId := by
  intro dog phrase table parse a b entities fillers found
  have horacles : table.Alike parse.headOf := by
    intro span
    simp only [table, HeadOracle.ofPairs, List.find?, ParsedDocument.headOf,
      ParsedDocument.headToken?, parse, ParsedDocument.sentenceOf?]
    cases hsame : phrase == span with
    | true =>
        have hinside : phrase.encloses span := by
          rw [← Span.encloses_congr phrase hsame]
          rfl
        have hheads : dog == { dog with text := some "dog" } := rfl
        simpa [hinside, Node.find?_eq_ite, hsame, Node.terminalHead?] using hheads
    | false => cases hinside : phrase.encloses span <;>
        simp [Node.find?_eq_ite, hsame, hinside, Node.findAmong?]
  have hresponses : a.Alike b := ⟨rfl, rfl, rfl⟩
  have hmentions : List.Forall₂ GoldMention.Alike entities fillers :=
    .cons ⟨rfl, rfl, rfl, rfl, rfl⟩ (.cons ⟨rfl, rfl, rfl, rfl, rfl⟩ .nil)
  have hfirst : (DocumentAligner.ofConfig .standard ⟨entities⟩ (some table) .identity).align a =
      found a.uniqueId := by decide +kernel
  have hsecond := align_eq_attributedTo_of_alike .standard .identity (some table)
    (some parse.headOf) a b ⟨entities⟩ ⟨fillers⟩
    (fun o ho => Option.some.inj ho ▸ HeadOracle.readsOffsets_ofPairs _)
    (.some horacles) hresponses hmentions
  rw [hfirst] at hsecond
  exact ⟨horacles, hresponses, hmentions, hfirst, hsecond⟩

end MentionAlign
