import Mathlib.Data.List.Forall2
import MentionAlign.Proofs.Cascade.Rank

/-!
# The log of an alignment

Warnings arise while the matches of one strategy are settled, and the other records when the walk
over the strategies ends.  `DocumentAligner.walk` is the walk with the records where they arise, and
the aligner walks like this (`walk_eq_search`).  A strategy that settles nothing warns of nothing,
and one that settles a match warns exactly of the ambiguity in it (`Strategy.settle_eq`).  So the
records of a response can be told from its result: `Reports` says which they are and what they say,
for a row of responses block by block.
-/

namespace MentionAlign

/-- The record of a response that no strategy aligned. -/
def LogRecord.unmatched (response : Response) : LogRecord where
  level := .trace
  text := "response " ++ response.uniqueId ++ " matched no gold mention"

/-- The record of a response and the strategy that aligned it. -/
def LogRecord.alignedBy (response : Response) (s : Strategy) : LogRecord where
  level := .debug
  text := "response " ++ response.uniqueId ++ " aligned by strategy " ++ s.label

/-- The record names the strategy by its index and its rule. -/
theorem LogRecord.alignedBy_eq (response : Response) (s : Strategy) :
    LogRecord.alignedBy response s =
      ⟨.debug, "response " ++ response.uniqueId ++ " aligned by strategy #" ++ toString s.index
        ++ " " ++ s.predicate.label⟩ := by
  have hmark : " aligned by strategy #" = " aligned by strategy " ++ "#" := rfl
  rw [alignedBy, Strategy.label, hmark]
  simp only [String.append_assoc]

/-- The record of an ambiguity. -/
def LogRecord.warning (a : Ambiguity) : LogRecord where
  level := .warn
  text := a.render

/-- Settles the matches of one strategy, and records a warning when they are ambiguous. -/
def Strategy.settle (s : Strategy) (responseId : String) :
    List GoldMention → Option AlignedMention × List LogRecord
  | [] => (none, [])
  | first :: rest =>
    let ambiguity := Ambiguity.among responseId (first :: rest)
    (some { mention := first.id, scoringId := first.scoringId, strategy := s.index, ambiguity },
      ambiguity.toList.map LogRecord.warning)

/-- **Warnings and ambiguities.**  What a strategy settles is its verdict, and it warns of the
ambiguity in it and of nothing else. -/
theorem Strategy.settle_eq (s : Strategy) (responseId : String) (mentions : List GoldMention) :
    s.settle responseId mentions =
      (s.verdict responseId mentions,
        ((s.verdict responseId mentions).bind AlignedMention.ambiguity).toList.map
          LogRecord.warning) := by
  cases mentions <;> rfl

namespace DocumentAligner

/-- Tries strategies in order.  Each one leaves its own records behind those before it, and the end
of the walk leaves one more. -/
def walk (aligner : DocumentAligner) (response : Response) :
    List Strategy → Alignment × List LogRecord
  | [] => (.unmatched, [.unmatched response])
  | s :: rest =>
    let settled := s.settle response.uniqueId (aligner.matching response s)
    match settled.1 with
    | some aligned => (.matched aligned, settled.2 ++ [.alignedBy response s])
    | none =>
      let later := aligner.walk response rest
      (later.1, settled.2 ++ later.2)

/-- The records that the result of aligning a response calls for.  A match is recorded with the
index that the result carries and with the rule of the strategy there. -/
inductive Reports (aligner : DocumentAligner) (response : Response) :
    Alignment → List LogRecord → Prop
  | unmatched :
      Reports aligner response .unmatched
        [⟨.trace, "response " ++ response.uniqueId ++ " matched no gold mention"⟩]
  | unambiguous {aligned : AlignedMention} {s : Strategy}
      (winner : aligner.strategies[aligned.strategy]? = some s)
      (single : aligned.ambiguity = none) :
      Reports aligner response (.matched aligned)
        [⟨.debug, "response " ++ response.uniqueId ++ " aligned by strategy #"
          ++ toString aligned.strategy ++ " " ++ s.predicate.label⟩]
  | ambiguous {aligned : AlignedMention} {s : Strategy} {a : Ambiguity}
      (winner : aligner.strategies[aligned.strategy]? = some s)
      (several : aligned.ambiguity = some a) :
      Reports aligner response (.matched aligned)
        [⟨.warn, a.render⟩,
          ⟨.debug, "response " ++ response.uniqueId ++ " aligned by strategy #"
            ++ toString aligned.strategy ++ " " ++ s.predicate.label⟩]

variable {aligner : DocumentAligner} {response : Response}

/-- The aligner walks with the records where they arise. -/
theorem walk_eq_search (aligner : DocumentAligner) (response : Response)
    (strategies : List Strategy) :
    aligner.walk response strategies = aligner.search response strategies := by
  induction strategies with
  | nil => rfl
  | cons s rest ih =>
      rw [walk, search, Strategy.settle_eq]
      cases s.verdict response.uniqueId (aligner.matching response s) with
      | some aligned => rfl
      | none => simp [ih]

/-- **What a walk records.**  It leaves the record of a response without a match alone, or the
warning of the ambiguity in its match, if there is one, and the record of the strategy that won. -/
theorem walk_cases (aligner : DocumentAligner) (response : Response)
    (strategies : List Strategy) :
    aligner.walk response strategies = (.unmatched, [.unmatched response]) ∨
      ∃ s ∈ strategies, ∃ aligned,
        s.verdict response.uniqueId (aligner.matching response s) = some aligned ∧
        aligner.walk response strategies =
          (.matched aligned,
            aligned.ambiguity.toList.map LogRecord.warning ++ [.alignedBy response s]) := by
  induction strategies with
  | nil => exact .inl rfl
  | cons s rest ih =>
      cases hverdict : s.verdict response.uniqueId (aligner.matching response s) with
      | some aligned =>
          refine .inr ⟨s, List.mem_cons_self, aligned, hverdict, ?_⟩
          rw [walk, Strategy.settle_eq, hverdict]
          rfl
      | none =>
          -- a strategy without a verdict leaves no records
          have hpassed : aligner.walk response (s :: rest) = aligner.walk response rest := by
            rw [walk, Strategy.settle_eq, hverdict]
            rfl
          rw [hpassed]
          rcases ih with hnone | ⟨t, ht, hwon⟩
          · exact .inl hnone
          · exact .inr ⟨t, List.mem_cons_of_mem _ ht, hwon⟩

/-- **Records mirror the result.**  The records of aligning a response are those that its result
calls for. -/
theorem Indexed.reports (h : aligner.Indexed) (response : Response) :
    aligner.Reports response (aligner.align response) (aligner.alignLogged response).2 := by
  have hwalk : aligner.alignLogged response = aligner.walk response aligner.strategies :=
    (walk_eq_search aligner response aligner.strategies).symm
  rw [align, hwalk]
  rcases walk_cases aligner response aligner.strategies with
    hnone | ⟨s, hs, aligned, hverdict, hwon⟩
  · rw [hnone]
    exact .unmatched
  · obtain ⟨i, hi⟩ := List.getElem?_of_mem hs
    have hindex : s.index = i := h i s hi
    have hcarried : aligned.strategy = s.index := by
      obtain ⟨first, rest, -, rfl⟩ := Strategy.verdict_eq_some_iff.mp hverdict
      rfl
    have hwinner : aligner.strategies[aligned.strategy]? = some s := by
      rw [hcarried, hindex, hi]
    rw [hwon, LogRecord.alignedBy_eq, ← hcarried]
    cases hambiguity : aligned.ambiguity with
    | none => exact .unambiguous hwinner hambiguity
    | some a => exact .ambiguous hwinner hambiguity

/-- Records called for by a result hold one warning if the result is ambiguous, and else none. -/
theorem Reports.countP_warn {result : Alignment} {records : List LogRecord}
    (h : aligner.Reports response result records) :
    records.countP (·.level == .warn) = if result.isAmbiguous then 1 else 0 := by
  cases h with
  | unmatched => rfl
  | unambiguous winner single =>
      simp [Alignment.isAmbiguous, Alignment.ambiguity?, Alignment.aligned?, single]
  | ambiguous winner several =>
      simp [Alignment.isAmbiguous, Alignment.ambiguity?, Alignment.aligned?, several]

/-- As many warnings are recorded as results are ambiguous. -/
theorem Indexed.countP_warn (h : aligner.Indexed) (responses : List Response) :
    (aligner.alignAllRecords responses).countP (·.level == .warn) =
      (aligner.alignAll responses).countP Alignment.isAmbiguous := by
  induction responses with
  | nil => rfl
  | cons response rest ih =>
      have hblock := (h.reports response).countP_warn
      have hrecords : aligner.alignAllRecords (response :: rest) =
          (aligner.alignLogged response).2 ++ aligner.alignAllRecords rest := rfl
      have hresults : aligner.alignAll (response :: rest) =
          aligner.align response :: aligner.alignAll rest := rfl
      rw [hrecords, hresults, List.countP_append, List.countP_cons, hblock, ih, Nat.add_comm]

end DocumentAligner

/-- The wording of an ambiguity names the response and all mentions that were found, in order. -/
theorem Ambiguity.render_of_among {id : String} {mentions : List GoldMention} {a : Ambiguity}
    (h : among id mentions = some a) :
    a.render = "multiple gold matches for response " ++ id ++ ": ["
      ++ ", ".intercalate (mentions.map fun m => m.id.name ++ " (" ++ m.scoringId.name ++ ")")
      ++ "]" := by
  have hid : a.responseId = id := by rw [eq_of_among_eq_some h]
  have hcandidates : a.candidates.map Candidate.render =
      mentions.map fun m => m.id.name ++ " (" ++ m.scoringId.name ++ ")" := by
    rw [eq_of_among_eq_some h, List.map_map]
    rfl
  unfold render
  rw [hid, hcandidates]

/-- **Records mirror results.**  An aligner for a document records where a strategy is settled and
where the walk ends, and for a row of responses the records come block by block, in the order of the
responses.  A block is one trace record for a response without a match, one debug record with the
index that the result carries for a match of one scoring unit, and before it a warning for an
ambiguous one.  The warning is the wording of the ambiguity in the result, which names the response
and every mention that satisfies the winning strategy.  There are as many warnings as ambiguous
results. -/
theorem alignAll_records_mirror_results (config : Config) (inventory : Inventory)
    (oracle : Option HeadOracle) (roles : RoleMap) (responses : List Response) :
    let aligner := DocumentAligner.ofConfig config inventory oracle roles
    (∀ response, aligner.walk response config.strategies = aligner.alignLogged response) ∧
    (∃ blocks, aligner.alignAllRecords responses = blocks.flatten ∧
      List.Forall₂ (fun response block => aligner.Reports response (aligner.align response) block)
        responses blocks) ∧
    (∀ response aligned a, aligner.align response = .matched aligned →
      aligned.ambiguity = some a →
      ∃ s, config.strategies[aligned.strategy]? = some s ∧
        a.render = "multiple gold matches for response " ++ response.uniqueId ++ ": ["
          ++ ", ".intercalate
            ((inventory.mentions.filter fun m => s.predicate.holds response m aligner.ctx).map
              fun m => m.id.name ++ " (" ++ m.scoringId.name ++ ")")
          ++ "]") ∧
    (aligner.alignAllRecords responses).countP (·.level == .warn) =
      (aligner.alignAll responses).countP Alignment.isAmbiguous := by
  intro aligner
  have hindexed := DocumentAligner.indexed_ofConfig config inventory oracle roles
  refine ⟨fun response => aligner.walk_eq_search response config.strategies, ?_, ?_,
    hindexed.countP_warn responses⟩
  · refine ⟨responses.map fun response => (aligner.alignLogged response).2, rfl, ?_⟩
    rw [List.forall₂_map_right_iff, List.forall₂_same]
    exact fun response _ => hindexed.reports response
  · intro response aligned a hmatched ha
    obtain ⟨s, hs, -, hverdict⟩ := hindexed.align_eq_matched_iff.mp hmatched
    obtain ⟨first, rest, -, rfl⟩ := Strategy.verdict_eq_some_iff.mp hverdict
    exact ⟨s, hs, Ambiguity.render_of_among ha⟩

/-- A span of two units is aligned with a warning that names both, and a span beside it without a
match leaves a trace. -/
theorem alignAll_records_mirror_two_units :
    let span : Span := { start := 131, stop := 139 }
    let response : Response :=
      { docId := "d", eventType := "E", role := "Time", argument := { text := "", span } }
    let missed : Response :=
      { docId := "d", eventType := "E", role := "Time",
        argument := { text := "", span := { start := 141, stop := 144 } } }
    let mentions :=
      [GoldMention.entity { id := ⟨"m"⟩, entity := "E1", extent := span, role := "Time" },
        .filler { id := ⟨"n"⟩, extent := span, role := "Time" }]
    let aligner := DocumentAligner.ofConfig .standard { mentions } none .identity
    let a : Ambiguity :=
      { responseId := response.uniqueId, candidates := [⟨⟨"m"⟩, ⟨"E1"⟩⟩, ⟨⟨"n"⟩, ⟨"n"⟩⟩] }
    aligner.align response =
      .matched { mention := ⟨"m"⟩, scoringId := ⟨"E1"⟩, strategy := 0, ambiguity := some a } ∧
    aligner.alignAllRecords [response, missed] = [
      ⟨.warn, "multiple gold matches for response d/E/Time/131-139/131-139/Actual: "
        ++ "[m (E1), n (n)]"⟩,
      ⟨.debug, "response d/E/Time/131-139/131-139/Actual aligned by strategy "
        ++ "#0 cas = gold extent & role"⟩,
      ⟨.trace, "response d/E/Time/141-144/141-144/Actual matched no gold mention"⟩] ∧
    (∃ s, Config.standard.strategies[0]? = some s ∧
      a.render = "multiple gold matches for response " ++ response.uniqueId ++ ": ["
        ++ ", ".intercalate
          ((mentions.filter fun m => s.predicate.holds response m aligner.ctx).map
            fun m => m.id.name ++ " (" ++ m.scoringId.name ++ ")")
        ++ "]") ∧
    (aligner.alignAllRecords [response, missed]).countP (·.level == .warn) = 1 := by
  intro span response missed mentions aligner a
  have halign : aligner.align response =
      .matched { mention := ⟨"m"⟩, scoringId := ⟨"E1"⟩, strategy := 0, ambiguity := some a } := by
    decide +kernel
  obtain ⟨-, -, htext, hcount⟩ :=
    alignAll_records_mirror_results .standard { mentions } none .identity [response, missed]
  obtain ⟨s, hs, hrender⟩ := htext response _ a halign rfl
  refine ⟨halign, ?_, ⟨_, hs, hrender⟩, hcount.trans ?_⟩
  · decide +kernel
  · decide +kernel

end MentionAlign
