import MentionAlign.Proofs.Cascade.Rank
import MentionAlign.Proofs.Fixture.Cases

/-!
# What a check asks for

A case asks for up to three things: the mention that is found, or that none is, the strategy that
wins, and the candidates between which the match is ambiguous.  `MentionMet`, `StrategyMet` and
`AmbiguityMet` say when an alignment gives what is asked for, and `Judges` says which outcome is
due: the first of the three that is not met, with what was asked for and what was found.

* `check_judges_expectations`: a check ends with the outcome that is due.  For an alignment that the
  aligner returned, asking for no ambiguous candidates is asking that the winning strategy matches
  one scoring unit.
* `check_recording_passes_unless_reserved`: a case that asks for what was found passes.  The one
  exception is a mention with the identifier `unmatched`, which no case can ask for, because that
  word stands for no mention at all.
-/

namespace MentionAlign

namespace Alignment

/-- The name stands for the mention that is found, or for none. -/
inductive NamesMention : Alignment → String → Prop
  | matched (aligned : AlignedMention) : NamesMention (.matched aligned) aligned.mention.name
  | unmatched : NamesMention .unmatched Case.unmatchedName

/-- The names are those of the candidates between which the match is ambiguous, in order.  Without
an ambiguity there are none. -/
inductive NamesCandidates (a : Alignment) : List String → Prop
  | several {ambiguity : Ambiguity} (h : a.ambiguity? = some ambiguity) :
      NamesCandidates a (ambiguity.candidates.map fun candidate => candidate.mention.name)
  | single (h : a.ambiguity? = none) : NamesCandidates a []

variable {a : Alignment}

/-- An alignment has one mention name, that of no match included. -/
theorem namesMention_iff {name : String} : a.NamesMention name ↔ a.mentionName = name := by
  constructor
  · rintro (_ | _)
    · rfl
    · rfl
  · rintro rfl
    cases a with
    | matched aligned => exact .matched aligned
    | unmatched => exact .unmatched

/-- An alignment has one row of candidates, empty without ambiguity. -/
theorem namesCandidates_iff {names : List String} :
    a.NamesCandidates names ↔ a.candidateNames = names := by
  have hnames : ∀ ambiguity : Ambiguity, ambiguity.mentionIds.map MentionId.name =
      ambiguity.candidates.map fun candidate => candidate.mention.name := fun _ => List.map_map
  constructor
  · rintro (hsome | hnone)
    · rw [candidateNames, hsome]
      exact hnames _
    · rw [candidateNames, hnone]
  · rintro rfl
    unfold candidateNames
    cases h : a.ambiguity? with
    | none => exact .single h
    | some ambiguity =>
        change a.NamesCandidates (ambiguity.mentionIds.map MentionId.name)
        rw [hnames]
        exact .several h

end Alignment

namespace Case

/-- The case asks for no mention and none is found, or it asks for the mention that is found. -/
def MentionMet (c : Case) (a : Alignment) : Prop :=
  (c.expect = unmatchedName ∧ a = .unmatched) ∨
    (c.expect ≠ unmatchedName ∧ ∃ aligned, a = .matched aligned ∧ aligned.mention = ⟨c.expect⟩)

/-- The case leaves the strategy open, there is none, or the case asks for the one that won. -/
def StrategyMet (c : Case) (a : Alignment) : Prop :=
  c.strategy = none ∨ a = .unmatched ∨
    ∃ aligned, a = .matched aligned ∧ c.strategy = some aligned.strategy

/-- The case leaves the ambiguity open, or it asks for the ambiguous candidates in their order. -/
def AmbiguityMet (c : Case) (a : Alignment) : Prop :=
  c.ambiguous = none ∨ ∃ names, c.ambiguous = some names ∧ a.NamesCandidates names

/-- The outcome that is due: the first thing that is asked for and not met, if there is one,
together with what is found in its place. -/
inductive Judges (c : Case) (a : Alignment) : Outcome → Prop
  | passed (mention : c.MentionMet a) (strategy : c.StrategyMet a) (ambiguity : c.AmbiguityMet a) :
      Judges c a .passed
  | wrongMention {actual : String} (mention : ¬ c.MentionMet a) (found : a.NamesMention actual) :
      Judges c a (.wrongMention c.expect actual)
  | wrongStrategy {expected : Nat} {aligned : AlignedMention} (mention : c.MentionMet a)
      (strategy : ¬ c.StrategyMet a) (asked : c.strategy = some expected)
      (found : a = .matched aligned) : Judges c a (.wrongStrategy expected aligned.strategy)
  | wrongAmbiguity {expected actual : List String} (mention : c.MentionMet a)
      (strategy : c.StrategyMet a) (ambiguity : ¬ c.AmbiguityMet a)
      (asked : c.ambiguous = some expected) (found : a.NamesCandidates actual) :
      Judges c a (.wrongAmbiguity expected actual)

section Differences

variable {c : Case} {a : Alignment} {o : Outcome}

/-- An expectation holds exactly when the mention is met. -/
theorem expectation_holds_iff : c.expectation.holds a = true ↔ c.MentionMet a := by
  unfold expectation MentionMet
  by_cases hreserved : c.expect = unmatchedName
  · cases a <;> simp [hreserved, Expectation.holds, Alignment.isMatched, Alignment.aligned?]
  · cases a <;>
      simp [hreserved, Expectation.holds, Alignment.mentionId?, Alignment.aligned?]

/-- No difference is found in a mention that is as expected. -/
theorem mentionDifference_of_met (h : c.MentionMet a) : c.mentionDifference a = none :=
  if_pos (expectation_holds_iff.mpr h)

/-- The difference names what was expected and what was found. -/
theorem mentionDifference_of_not_met (h : ¬ c.MentionMet a) :
    c.mentionDifference a = some (.wrongMention c.expect a.mentionName) :=
  if_neg (mt expectation_holds_iff.mp h)

/-- No difference is found in a strategy that is as expected or not asked for. -/
theorem strategyDifference_of_met (h : c.StrategyMet a) : c.strategyDifference a = none := by
  unfold strategyDifference
  rcases h with hopen | rfl | ⟨aligned, rfl, hsame⟩
  · rw [hopen]
  · cases c.strategy <;> rfl
  · rw [hsame]
    exact if_pos rfl

/-- A strategy that is not met is asked for, and there is one that won. -/
theorem exists_of_not_strategyMet (h : ¬ c.StrategyMet a) :
    ∃ expected aligned, c.strategy = some expected ∧ a = .matched aligned := by
  obtain ⟨hasked, hfound⟩ := not_or.mp h
  obtain ⟨expected, hexpected⟩ := Option.ne_none_iff_exists'.mp hasked
  cases a with
  | unmatched => exact absurd (.inl rfl) hfound
  | matched aligned => exact ⟨expected, aligned, hexpected, rfl⟩

theorem strategyDifference_of_not_met {expected : Nat} {aligned : AlignedMention}
    (h : ¬ c.StrategyMet a) (hasked : c.strategy = some expected) (hfound : a = .matched aligned) :
    c.strategyDifference a = some (.wrongStrategy expected aligned.strategy) := by
  have hdiffer : expected ≠ aligned.strategy := by
    rintro rfl
    exact h (.inr (.inr ⟨aligned, hfound, hasked⟩))
  unfold strategyDifference
  rw [hasked, hfound]
  exact if_neg hdiffer

/-- No difference is found in candidates that are as expected or not asked for. -/
theorem ambiguityDifference_of_met (h : c.AmbiguityMet a) : c.ambiguityDifference a = none := by
  unfold ambiguityDifference
  rcases h with hopen | ⟨names, hasked, hnames⟩
  · rw [hopen]
  · rw [hasked, Alignment.namesCandidates_iff.mp hnames]
    exact if_pos rfl

theorem ambiguityDifference_of_not_met {expected actual : List String} (h : ¬ c.AmbiguityMet a)
    (hasked : c.ambiguous = some expected) (hfound : a.NamesCandidates actual) :
    c.ambiguityDifference a = some (.wrongAmbiguity expected actual) := by
  have hdiffer : expected ≠ actual := by
    rintro rfl
    exact h (.inr ⟨expected, hasked, hfound⟩)
  unfold ambiguityDifference
  rw [hasked, Alignment.namesCandidates_iff.mp hfound]
  exact if_neg hdiffer

/-- Some outcome is due. -/
theorem exists_judges (c : Case) (a : Alignment) : ∃ o, c.Judges a o := by
  by_cases hmention : c.MentionMet a
  · by_cases hstrategy : c.StrategyMet a
    · by_cases hambiguity : c.AmbiguityMet a
      · exact ⟨_, .passed hmention hstrategy hambiguity⟩
      · obtain ⟨expected, hasked⟩ := Option.ne_none_iff_exists'.mp (not_or.mp hambiguity).1
        exact ⟨_, .wrongAmbiguity hmention hstrategy hambiguity hasked
          (Alignment.namesCandidates_iff.mpr rfl)⟩
    · obtain ⟨expected, aligned, hasked, hfound⟩ := exists_of_not_strategyMet hstrategy
      exact ⟨_, .wrongStrategy hmention hstrategy hasked hfound⟩
  · exact ⟨_, .wrongMention hmention (Alignment.namesMention_iff.mpr rfl)⟩

/-- A check ends with an outcome that is due. -/
theorem check_of_judges (h : c.Judges a o) : c.check a = o := by
  unfold check
  cases h with
  | passed hmention hstrategy hambiguity =>
      rw [mentionDifference_of_met hmention, strategyDifference_of_met hstrategy,
        ambiguityDifference_of_met hambiguity]
      rfl
  | wrongMention hmention hfound =>
      rw [mentionDifference_of_not_met hmention, Alignment.namesMention_iff.mp hfound]
      rfl
  | wrongStrategy hmention hstrategy hasked hfound =>
      rw [mentionDifference_of_met hmention, strategyDifference_of_not_met hstrategy hasked hfound]
      rfl
  | wrongAmbiguity hmention hstrategy hambiguity hasked hfound =>
      rw [mentionDifference_of_met hmention, strategyDifference_of_met hstrategy,
        ambiguityDifference_of_not_met hambiguity hasked hfound]
      rfl

/-- **The first thing that is not met.**  A check ends with the outcome that is due and with no
other. -/
theorem check_eq_iff_judges : c.check a = o ↔ c.Judges a o := by
  refine ⟨?_, check_of_judges⟩
  rintro rfl
  obtain ⟨o, ho⟩ := exists_judges c a
  rwa [check_of_judges ho]

/-- A check passes exactly when everything that is asked for is met. -/
theorem check_eq_passed_iff :
    c.check a = .passed ↔ c.MentionMet a ∧ c.StrategyMet a ∧ c.AmbiguityMet a := by
  rw [check_eq_iff_judges]
  constructor
  · rintro (⟨hmention, hstrategy, hambiguity⟩ | _)
    exact ⟨hmention, hstrategy, hambiguity⟩
  · rintro ⟨hmention, hstrategy, hambiguity⟩
    exact .passed hmention hstrategy hambiguity

end Differences

end Case

/-- The match that a strategy yields names no ambiguous candidates exactly when its mentions belong
to one scoring unit: an ambiguity is never without candidates. -/
theorem Strategy.namesCandidates_nil_iff {s : Strategy} {id : String} {mentions : List GoldMention}
    {aligned : AlignedMention} (h : s.verdict id mentions = some aligned) :
    (Alignment.matched aligned).NamesCandidates [] ↔
      ∀ m ∈ mentions, ∀ n ∈ mentions, m.scoringId = n.scoringId := by
  have hunits : aligned.ambiguity = none ↔
      ∀ m ∈ mentions, ∀ n ∈ mentions, m.scoringId = n.scoringId := by
    rw [← Option.not_isSome_iff_eq_none, ambiguity_isSome_iff h]
    push Not
    rfl
  rw [← hunits]
  constructor
  · intro hnames
    obtain ⟨first, rest, hmentions, rfl⟩ := verdict_eq_some_iff.mp h
    generalize hlist : ([] : List String) = names at hnames
    cases hnames with
    | single hnone => exact hnone
    | several hsome =>
        rw [Ambiguity.eq_of_among_eq_some hsome, hmentions] at hlist
        cases hlist
  · intro hnone
    exact .single hnone

namespace Case

/-- **A check asks three things in order.**  It passes exactly when everything that the case asks
for is met, and otherwise its outcome is the first thing that is not, with what is found in its
place.  Where the alignment comes from the aligner, a case that asks for no ambiguous candidates is
met in this exactly when nothing matched or all mentions that satisfy the winning strategy belong to
one scoring unit. -/
theorem check_judges_expectations (c : Case) :
    (∀ a, (c.check a = .passed ↔ c.MentionMet a ∧ c.StrategyMet a ∧ c.AmbiguityMet a) ∧
      ∀ o, c.check a = o ↔ c.Judges a o) ∧
    ∀ config inventory oracle roles response,
      let aligner := DocumentAligner.ofConfig config inventory oracle roles
      c.ambiguous = some [] →
        (c.AmbiguityMet (aligner.align response) ↔
          aligner.align response = .unmatched ∨
          ∃ aligned winner, aligner.align response = .matched aligned ∧
            config.strategies[aligned.strategy]? = some winner ∧
            ∀ m ∈ aligner.matching response winner, ∀ n ∈ aligner.matching response winner,
              m.scoringId = n.scoringId) := by
  refine ⟨fun a => ⟨check_eq_passed_iff, fun o => check_eq_iff_judges⟩, ?_⟩
  intro config inventory oracle roles response aligner hasked
  have hnames : c.AmbiguityMet (aligner.align response) ↔
      (aligner.align response).NamesCandidates [] := by
    unfold AmbiguityMet
    simp [hasked]
  have hindexed : aligner.Indexed :=
    DocumentAligner.indexed_ofConfig config inventory oracle roles
  rw [hnames]
  cases halign : aligner.align response with
  | unmatched => exact ⟨fun _ => .inl rfl, fun _ => .single rfl⟩
  | matched aligned =>
      obtain ⟨s, hs, -, hverdict⟩ := hindexed.align_eq_matched_iff.mp halign
      rw [Strategy.namesCandidates_nil_iff hverdict]
      constructor
      · intro hunit
        exact .inr ⟨aligned, s, rfl, hs, hunit⟩
      · rintro (hnone | ⟨_, winner, hmatched, hwinner, hunit⟩)
        · cases hnone
        · obtain rfl := Alignment.matched.inj hmatched
          obtain rfl := Option.some.inj (hs.symm.trans hwinner)
          exact hunit

/-- Two mentions of one entity over one extent are no ambiguity, so the case that asks for none is
met.  A case that asks for another strategy as well ends with that, although it asks for ambiguous
candidates that are not there either. -/
theorem check_judges_coreferent_mentions :
    let span : Span := { start := 201, stop := 209 }
    let response : Response :=
      { docId := "d", eventType := "E", role := "Agent", argument := { text := "", span } }
    let mention := fun id =>
      GoldMention.entity { id := ⟨id⟩, entity := "E1", extent := span, role := "Agent" }
    let inventory : Inventory := { mentions := [mention "a", mention "b"] }
    let result := (DocumentAligner.ofConfig .standard inventory none .identity).align response
    let settled : Case :=
      { id := "r", eventType := "E", role := "Agent", argument := "201-209", expect := "a",
        ambiguous := some [] }
    let contested : Case := { settled with strategy := some 4, ambiguous := some ["a", "b"] }
    settled.check result = .passed ∧ contested.check result = .wrongStrategy 4 0 := by
  intro span response mention inventory result settled contested
  let found : AlignedMention := { mention := ⟨"a"⟩, scoringId := ⟨"E1"⟩, strategy := 0 }
  have hfound : result = .matched found := by decide +kernel
  have hmention : settled.MentionMet result := .inr ⟨by decide, found, hfound, rfl⟩
  obtain ⟨houtcomes, hunits⟩ := check_judges_expectations settled
  have hambiguity : settled.AmbiguityMet result := by
    refine (hunits .standard inventory none .identity response rfl).mpr ?_
    refine .inr ⟨found, _, hfound, rfl, fun m hm n hn => ?_⟩
    have hunit : ∀ m ∈ inventory.mentions, m.scoringId = ⟨"E1"⟩ := by
      simp [inventory, mention, GoldMention.scoringId]
    rw [hunit m (List.mem_filter.mp hm).1, hunit n (List.mem_filter.mp hn).1]
  have hcontested : contested.MentionMet result := hmention
  have hstrategy : ¬ contested.StrategyMet result := by
    rw [hfound]
    simp [StrategyMet, contested, found]
  exact ⟨(houtcomes result).1.mpr ⟨hmention, .inl rfl, hambiguity⟩,
    (((check_judges_expectations contested).1 result).2 _).mpr
      (.wrongStrategy hcontested hstrategy rfl hfound)⟩

/-- The case that asks for what is found: for the mention, or none, by the name that the checker
gives it, for the strategy that won, and for the ambiguous candidates. -/
def recording (c : Case) (a : Alignment) : Case :=
  { c with expect := a.mentionName, strategy := a.strategy?, ambiguous := some a.candidateNames }

end Case

/-- The mention that is found has the identifier that cases keep for no mention at all. -/
def Alignment.FindsReserved (a : Alignment) : Prop :=
  ∃ aligned, a = .matched aligned ∧ aligned.mention = ⟨Case.unmatchedName⟩

namespace Case

section Recording

variable {c : Case} {a : Alignment}

/-- No case asks for a mention with the reserved identifier. -/
theorem not_mentionMet_of_findsReserved (h : a.FindsReserved) : ¬ c.MentionMet a := by
  obtain ⟨found, rfl, hreserved⟩ := h
  rintro (⟨_, hnone⟩ | ⟨hname, aligned, hmatched, hasked⟩)
  · cases hnone
  · obtain rfl := Alignment.matched.inj hmatched
    exact hname (MentionId.mk.inj (hasked.symm.trans hreserved))

/-- **What the words of a case leave open.**  A case has the name of what is found exactly when it
asks for that, or when it asks for no mention and the reserved identifier is found. -/
theorem namesMention_expect_iff :
    a.NamesMention c.expect ↔ c.MentionMet a ∨ (a.FindsReserved ∧ c.expect = unmatchedName) := by
  constructor
  · intro hname
    generalize hexpect : c.expect = name at hname
    cases hname with
    | unmatched => exact .inl (.inl ⟨hexpect, rfl⟩)
    | matched aligned =>
        by_cases hreserved : aligned.mention.name = unmatchedName
        · exact .inr ⟨⟨aligned, rfl, congrArg MentionId.mk hreserved⟩, hreserved⟩
        · refine .inl (.inr ⟨hexpect ▸ hreserved, aligned, rfl, ?_⟩)
          rw [hexpect]
  · rintro ((⟨hexpect, rfl⟩ | ⟨_, aligned, rfl, hasked⟩) | ⟨⟨aligned, rfl, hreserved⟩, hexpect⟩)
    · rw [hexpect]
      exact .unmatched
    · have hname : aligned.mention.name = c.expect := congrArg MentionId.name hasked
      exact hname ▸ .matched aligned
    · have hname : aligned.mention.name = c.expect :=
        (congrArg MentionId.name hreserved).trans hexpect.symm
      exact hname ▸ .matched aligned

theorem recording_strategyMet (c : Case) (a : Alignment) : (c.recording a).StrategyMet a := by
  cases a with
  | unmatched => exact .inr (.inl rfl)
  | matched aligned => exact .inr (.inr ⟨aligned, rfl, rfl⟩)

theorem recording_ambiguityMet (c : Case) (a : Alignment) : (c.recording a).AmbiguityMet a :=
  .inr ⟨_, rfl, Alignment.namesCandidates_iff.mpr rfl⟩

theorem recording_mentionMet_iff : (c.recording a).MentionMet a ↔ ¬ a.FindsReserved := by
  constructor
  · intro hmet hreserved
    exact not_mentionMet_of_findsReserved hreserved hmet
  · intro hreserved
    have hname : a.NamesMention (c.recording a).expect := Alignment.namesMention_iff.mpr rfl
    exact (namesMention_expect_iff.mp hname).resolve_right fun h => hreserved h.1

/-- A wrong mention goes by the name of the right one only if it has the reserved identifier. -/
theorem wrongMention_same_iff {expected actual : String}
    (h : c.check a = .wrongMention expected actual) :
    expected = actual ↔ a.FindsReserved ∧ c.expect = unmatchedName := by
  obtain ⟨⟩ | ⟨hmention, hfound⟩ := check_eq_iff_judges.mp h
  constructor
  · rintro rfl
    exact (namesMention_expect_iff.mp hfound).resolve_left hmention
  · intro hreserved
    have hname := namesMention_expect_iff.mpr (.inr hreserved)
    exact (Alignment.namesMention_iff.mp hname).symm.trans (Alignment.namesMention_iff.mp hfound)

/-- Against an inventory without the reserved identifier it is not found. -/
theorem not_findsReserved_of_align {aligner : DocumentAligner} {response : Response}
    (h : ∀ m ∈ aligner.inventory.mentions, m.id ≠ ⟨unmatchedName⟩) :
    ¬ (aligner.align response).FindsReserved := by
  rintro ⟨aligned, hmatched, hreserved⟩
  obtain ⟨m, hm, hid⟩ := DocumentAligner.exists_mem_of_matched hmatched
  exact h m hm (hid.trans hreserved)

/-- What is found against an inventory is known there. -/
theorem recording_expectsKnown (c : Case) (aligner : DocumentAligner) (response : Response) :
    (c.recording (aligner.align response)).ExpectsKnown aligner.inventory := by
  cases hresult : aligner.align response with
  | unmatched => exact .inl rfl
  | matched aligned => exact .inr (DocumentAligner.exists_mem_of_matched hresult)

end Recording

/-- **What is found can be asked for.**  A case that asks for what is found passes, except where the
mention that is found has the identifier which stands for no mention.  Against an inventory without
that identifier it always passes, and a run does not refuse it either.  A wrong mention is reported
with one name for what was asked for and for what was found only when no mention was asked for and
that identifier was found. -/
theorem check_recording_passes_unless_reserved (c : Case) :
    (∀ a : Alignment, (c.recording a).check a = .passed ↔ ¬ a.FindsReserved) ∧
    (∀ config (inventory : Inventory) oracle roles response,
      (∀ m ∈ inventory.mentions, m.id ≠ ⟨unmatchedName⟩) →
        let result := (DocumentAligner.ofConfig config inventory oracle roles).align response
        (c.recording result).check result = .passed ∧
          (c.recording result).ExpectsKnown inventory) ∧
    ∀ (a : Alignment) (expected actual : String), c.check a = .wrongMention expected actual →
      (expected = actual ↔ a.FindsReserved ∧ c.expect = unmatchedName) := by
  have hpasses : ∀ a : Alignment, (c.recording a).check a = .passed ↔ ¬ a.FindsReserved := by
    intro a
    rw [check_eq_passed_iff, recording_mentionMet_iff]
    exact and_iff_left ⟨recording_strategyMet c a, recording_ambiguityMet c a⟩
  refine ⟨hpasses, ?_, fun a expected actual => wrongMention_same_iff⟩
  intro config inventory oracle roles response hnames result
  exact ⟨(hpasses result).mpr (not_findsReserved_of_align hnames), recording_expectsKnown c _ _⟩

/-- A match of two units is asked for and passes.  The case that asks for no match is refused with
two names. -/
theorem check_recording_passes_two_units :
    let span : Span := { start := 211, stop := 219 }
    let response : Response :=
      { docId := "d", eventType := "E", role := "Time", argument := { text := "", span } }
    let inventory : Inventory :=
      { mentions := [.entity { id := ⟨"m"⟩, entity := "E1", extent := span, role := "Time" },
          .filler { id := ⟨"n"⟩, extent := span, role := "Time" }] }
    let result := (DocumentAligner.ofConfig .standard inventory none .identity).align response
    let case : Case :=
      { id := "r", eventType := "E", role := "Time", argument := "211-219", expect := "unmatched" }
    (∀ m ∈ inventory.mentions, m.id ≠ ⟨unmatchedName⟩) ∧
    case.recording result =
      { case with expect := "m", strategy := some 0, ambiguous := some ["m", "n"] } ∧
    (case.recording result).check result = .passed ∧
    case.check result = .wrongMention "unmatched" "m" ∧ ¬ result.FindsReserved := by
  intro span response inventory result case
  have hnames : ∀ m ∈ inventory.mentions, m.id ≠ ⟨unmatchedName⟩ := by
    simp [inventory, GoldMention.id, unmatchedName]
  have hwrong : case.check result = .wrongMention "unmatched" "m" := by decide +kernel
  obtain ⟨_, hrecorded, hsame⟩ := check_recording_passes_unless_reserved case
  refine ⟨hnames, by decide +kernel,
    (hrecorded .standard inventory none .identity response hnames).1, hwrong, ?_⟩
  intro hreserved
  exact absurd ((hsame result _ _ hwrong).mpr ⟨hreserved, rfl⟩) (by decide)

/-- A filler with the identifier `unmatched` is found, and the case that asks for it by this name
asks for no mention: it fails, with one name for what was asked for and for what was found. -/
theorem recording_of_filler_named_unmatched :
    let span : Span := { start := 221, stop := 228 }
    let response : Response :=
      { docId := "d", eventType := "E", role := "Time", argument := { text := "", span } }
    let inventory : Inventory :=
      { mentions := [.filler { id := ⟨"unmatched"⟩, extent := span, role := "Time" }] }
    let result := (DocumentAligner.ofConfig .standard inventory none .identity).align response
    let case : Case :=
      { id := "r", eventType := "E", role := "Time", argument := "221-228", expect := "" }
    result =
      .matched { mention := ⟨"unmatched"⟩, scoringId := ⟨"unmatched"⟩, strategy := 0 } ∧
    case.recording result =
      { case with expect := "unmatched", strategy := some 0, ambiguous := some [] } ∧
    (case.recording result).check result = .wrongMention "unmatched" "unmatched" := by
  decide +kernel

end Case

end MentionAlign
