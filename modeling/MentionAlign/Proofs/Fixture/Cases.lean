import MentionAlign.Fixture.Run
import MentionAlign.Proofs.Data.Traversal

/-!
# Running the cases of a fixture

A fixture is run in stages: its gold data, its trees, and then one case after the other, each of
which first has to expect something known and then has to describe a response.  The first stage that
fails is the error of the run.  When none fails, every case has been checked once
(`Case.CheckedAs`), and the checks are told apart by their outcome alone, so each of the two lists
keeps the order of the cases.

`run_checks_each_case` puts the three parts together: when a run succeeds, what it then holds, and
with which error it fails otherwise.
-/

namespace MentionAlign

namespace Case

/-- The case expects no mention, or one that the inventory holds. -/
def ExpectsKnown (inventory : Inventory) (c : Case) : Prop :=
  c.expect = unmatchedName ∨ ∃ m ∈ inventory.mentions, m.id = ⟨c.expect⟩

/-- The case can be run: what it expects is known, and its response can be read. -/
def Runnable (inventory : Inventory) (docId : String) (c : Case) : Prop :=
  c.ExpectsKnown inventory ∧ ∃ response, c.response docId = .ok response

/-- Why the case cannot be run.  An unknown expectation comes before whatever is wrong with the
response. -/
inductive RefusedWith (inventory : Inventory) (docId : String) (c : Case) : FixtureError → Prop
  | unknownMention (h : ¬ c.ExpectsKnown inventory) :
      RefusedWith inventory docId c (.unknownMention c.id ⟨c.expect⟩)
  | response {e : InputError} (hknown : c.ExpectsKnown inventory)
      (h : c.response docId = .error e) : RefusedWith inventory docId c (.input e)

/-- The check of a case: it carries the name of the case, the span of its canonical argument, the
alignment of the response that it describes, and what comparing that with the case gives. -/
structure CheckedAs (aligner : DocumentAligner) (docId : String) (c : Case) (check : Check) :
    Prop where
  response : check.response = c.id
  span : c.span = .ok check.span
  alignment : ∃ response, c.response docId = .ok response ∧
    check.alignment = aligner.align response
  outcome : check.outcome = c.check check.alignment

/-- The response of a case stands at the span of the case. -/
theorem span_of_response {c : Case} {docId : String} {response : Response}
    (h : c.response docId = .ok response) : c.span = .ok response.argument.span := by
  obtain ⟨span, hspan, hparts⟩ := bind_eq_ok_iff.mp h
  obtain ⟨baseFiller, _, hparts⟩ := bind_eq_ok_iff.mp hparts
  obtain ⟨justifications, _, hparts⟩ := bind_eq_ok_iff.mp hparts
  obtain ⟨realis, _, hresponse⟩ := bind_eq_ok_iff.mp hparts
  obtain rfl := Except.ok.inj hresponse
  exact hspan

end Case

theorem Inventory.get?_isSome_iff {inventory : Inventory} {id : MentionId} :
    (inventory.get? id).isSome ↔ ∃ m ∈ inventory.mentions, m.id = id := by
  simp [get?, List.find?_isSome]

namespace Fixture

section Cases

variable {inventory : Inventory} {aligner : DocumentAligner} {docId : String} {c : Case}

/-- Nothing is refused for expecting what is known. -/
theorem confirmExpected_of_known (h : c.ExpectsKnown inventory) :
    confirmExpected inventory c = .ok () := by
  unfold confirmExpected Case.expectation
  by_cases hunmatched : c.expect = Case.unmatchedName
  · rw [if_pos hunmatched]
  · have hmention := Inventory.get?_isSome_iff.mpr (h.resolve_left hunmatched)
    simp only [if_neg hunmatched, if_pos hmention]

/-- The refusal names the response and the mention that it expects. -/
theorem confirmExpected_of_unknown (h : ¬ c.ExpectsKnown inventory) :
    confirmExpected inventory c = .error (.unknownMention c.id ⟨c.expect⟩) := by
  obtain ⟨hunmatched, hmention⟩ := not_or.mp h
  unfold confirmExpected Case.expectation
  simp only [if_neg hunmatched, if_neg (mt Inventory.get?_isSome_iff.mp hmention)]

/-- A case that expects something known is run by aligning its response. -/
theorem runCase_of_known (h : c.ExpectsKnown aligner.inventory) :
    runCase aligner docId c = ((c.response docId).mapError FixtureError.input).map fun response =>
      ({ response := c.id, span := response.argument.span, alignment := aligner.align response,
         outcome := c.check (aligner.align response) },
        (aligner.alignLogged response).2) := by
  unfold runCase
  rw [confirmExpected_of_known h]
  cases c.response docId <;> rfl

/-- What is wrong with the response of such a case is not looked at. -/
theorem runCase_of_unknown (h : ¬ c.ExpectsKnown aligner.inventory) :
    runCase aligner docId c = .error (.unknownMention c.id ⟨c.expect⟩) := by
  unfold runCase
  rw [confirmExpected_of_unknown h]
  rfl

/-- A case that is run is checked as it describes. -/
theorem checkedAs_of_runCase {result : Check × List LogRecord}
    (h : runCase aligner docId c = .ok result) : c.CheckedAs aligner docId result.1 := by
  by_cases hknown : c.ExpectsKnown aligner.inventory
  · rw [runCase_of_known hknown, map_eq_ok_iff] at h
    obtain ⟨response, hread, rfl⟩ := h
    have hresponse := mapError_eq_ok_iff.mp hread
    exact ⟨rfl, Case.span_of_response hresponse, ⟨response, hresponse, rfl⟩, rfl⟩
  · rw [runCase_of_unknown hknown] at h
    cases h

/-- A case is run exactly when what it expects is known and its response can be read. -/
theorem exists_runCase_iff :
    (∃ result, runCase aligner docId c = .ok result) ↔ c.Runnable aligner.inventory docId := by
  unfold Case.Runnable
  by_cases hknown : c.ExpectsKnown aligner.inventory
  · simp [runCase_of_known hknown, map_eq_ok_iff, mapError_eq_ok_iff, hknown]
  · simp [runCase_of_unknown hknown, hknown]

/-- A case is refused for one reason. -/
theorem runCase_eq_error_iff {e : FixtureError} :
    runCase aligner docId c = .error e ↔ c.RefusedWith aligner.inventory docId e := by
  by_cases hknown : c.ExpectsKnown aligner.inventory
  · rw [runCase_of_known hknown, map_eq_error_iff, mapError_eq_error_iff]
    constructor
    · rintro ⟨fault, hresponse, rfl⟩
      exact .response hknown hresponse
    · rintro (hunknown | ⟨_, hresponse⟩)
      · exact absurd hknown hunknown
      · exact ⟨_, hresponse, rfl⟩
  · rw [runCase_of_unknown hknown]
    constructor
    · intro h
      obtain rfl := Except.error.inj h
      exact .unknownMention hknown
    · rintro (_ | ⟨hknown', _⟩)
      · rfl
      · exact absurd hknown' hknown

/-- Cases cannot all be run exactly when there is a first one that cannot. -/
theorem mapM_runCase_eq_error_iff {cases : List Case} {e : FixtureError} :
    cases.mapM (runCase aligner docId) = .error e ↔
      ∃ before c after, cases = before ++ c :: after ∧
        (∀ b ∈ before, b.Runnable aligner.inventory docId) ∧
        c.RefusedWith aligner.inventory docId e := by
  rw [mapM_eq_error_iff]
  simp only [exists_runCase_iff, runCase_eq_error_iff]

/-- The checks of cases that are run are checks of the cases, one each and in order. -/
theorem forall₂_checkedAs {cases : List Case} {results : List (Check × List LogRecord)}
    (h : cases.mapM (runCase aligner docId) = .ok results) :
    List.Forall₂ (Case.CheckedAs aligner docId) cases (results.map Prod.fst) := by
  rw [List.forall₂_map_right_iff]
  exact (mapM_eq_ok_iff_forall₂.mp h).imp fun _ _ => checkedAs_of_runCase

end Cases

section Stages

variable {f : Fixture} {gold : GoldDocument GoldMention} {parse : Option ParsedDocument}

/-- The aligner of a fixture has the set-up of the fixture, the heads of the parse, where there is
one, and the role table, where there is one. -/
theorem aligner_eq (f : Fixture) (gold : GoldDocument GoldMention) (parse : Option ParsedDocument) :
    f.aligner ⟨gold, parse⟩ = DocumentAligner.ofConfig f.config gold.inventory
      (parse.map ParsedDocument.headOf) (f.roles.elim RoleMap.identity RoleTable.toMap) := by
  unfold aligner roleMap
  cases f.roles <;> rfl

@[simp] theorem inventory_aligner (f : Fixture) (doc : AnnotatedDocument) :
    (f.aligner doc).inventory = doc.gold.inventory := rfl

/-- The fault of the gold data comes before whatever is wrong with the trees. -/
theorem run_of_gold_error {fault : InputError} (h : f.gold = .error fault) :
    f.run = .error (.input fault) := by
  unfold run annotated
  rw [h]
  rfl

/-- With gold data in order, the fault of the trees comes before any case. -/
theorem run_of_parse_error {fault : TreeError} (hgold : f.gold = .ok gold)
    (h : f.parse = .error fault) : f.run = .error (.tree fault) := by
  unfold run annotated
  rw [hgold, h]
  rfl

/-- With gold data and trees in order, a run is the run of its cases. -/
theorem run_of_annotated (hgold : f.gold = .ok gold) (hparse : f.parse = .ok parse) :
    f.run = (f.cases.mapM (runCase (f.aligner ⟨gold, parse⟩) gold.docId)).map fun results =>
      (Checks.ofList (results.map Prod.fst), results.flatMap Prod.snd) := by
  unfold run annotated
  rw [hgold, hparse]
  simp only [Except.mapError, bind, Except.bind, pure, Except.pure]
  cases f.cases.mapM (runCase (f.aligner ⟨gold, parse⟩) gold.docId) <;> rfl

/-- A run that succeeds has come through all stages. -/
theorem run_eq_ok_iff {result : Checks × List LogRecord} :
    f.run = .ok result ↔
      ∃ gold parse results, f.gold = .ok gold ∧ f.parse = .ok parse ∧
        f.cases.mapM (runCase (f.aligner ⟨gold, parse⟩) gold.docId) = .ok results ∧
        (Checks.ofList (results.map Prod.fst), results.flatMap Prod.snd) = result := by
  cases hgold : f.gold with
  | error fault => simp [run_of_gold_error hgold]
  | ok gold =>
      cases hparse : f.parse with
      | error fault => simp [run_of_parse_error hgold hparse]
      | ok parse => simp [run_of_annotated hgold hparse, map_eq_ok_iff]

/-- A run that fails does so at the first stage that does. -/
theorem run_eq_error_iff {e : FixtureError} :
    f.run = .error e ↔
      (∃ fault, f.gold = .error fault ∧ e = .input fault) ∨
      (∃ gold fault, f.gold = .ok gold ∧ f.parse = .error fault ∧ e = .tree fault) ∨
      ∃ gold parse, f.gold = .ok gold ∧ f.parse = .ok parse ∧
        f.cases.mapM (runCase (f.aligner ⟨gold, parse⟩) gold.docId) = .error e := by
  cases hgold : f.gold with
  | error fault => simp [run_of_gold_error hgold, eq_comm]
  | ok gold =>
      cases hparse : f.parse with
      | error fault => simp [run_of_parse_error hgold hparse, eq_comm]
      | ok parse => simp [run_of_annotated hgold hparse, map_eq_error_iff]

/-- The checks of a run are those of a list that goes through the cases in order. -/
theorem exists_checks_of_run {checks : Checks} {records : List LogRecord}
    (h : f.run = .ok (checks, records)) :
    ∃ all, checks = Checks.ofList all ∧ all.map Check.response = f.cases.map Case.id := by
  obtain ⟨gold, parse, results, _, _, hcases, hresult⟩ := run_eq_ok_iff.mp h
  obtain ⟨rfl, _⟩ := Prod.mk.inj hresult
  refine ⟨results.map Prod.fst, rfl, ?_⟩
  rw [← List.forall₂_eq_eq_eq, List.forall₂_map_left_iff, List.forall₂_map_right_iff]
  exact (forall₂_checkedAs hcases).flip.imp fun _ _ hchecked => hchecked.response

end Stages

/-- **Every response is checked once, and a run fails only for a stated reason.**  A run succeeds
exactly when the gold data and the trees can be read and every case can be run.  Its checks are then
those of the cases, one each, and both lists keep their order; all cases are aligned with the set-up
and the role table of the fixture and with the heads of its trees.  A run that fails does so with
the fault of the gold data, else with that of the trees, else with that of the first case that
cannot be run. -/
theorem run_checks_each_case (f : Fixture) :
    ((∃ checks records, f.run = .ok (checks, records)) ↔
      ∃ gold parse, f.gold = .ok gold ∧ f.parse = .ok parse ∧
        ∀ c ∈ f.cases, c.Runnable gold.inventory gold.docId) ∧
    (∀ gold parse checks records, f.gold = .ok gold → f.parse = .ok parse →
      f.run = .ok (checks, records) →
        let aligner := DocumentAligner.ofConfig f.config gold.inventory
          (parse.map ParsedDocument.headOf) (f.roles.elim RoleMap.identity RoleTable.toMap)
        ∃ all, List.Forall₂ (Case.CheckedAs aligner gold.docId) f.cases all ∧
          checks.passed = all.filter (fun check => check.outcome = .passed) ∧
          checks.failed = all.filter (fun check => check.outcome ≠ .passed) ∧
          (checks.passed ++ checks.failed).Perm all ∧ checks.total = f.cases.length) ∧
    ∀ e, f.run = .error e ↔
      (∃ fault, f.gold = .error fault ∧ e = .input fault) ∨
      (∃ gold fault, f.gold = .ok gold ∧ f.parse = .error fault ∧ e = .tree fault) ∨
      ∃ gold parse, f.gold = .ok gold ∧ f.parse = .ok parse ∧
        ∃ before c after, f.cases = before ++ c :: after ∧
          (∀ b ∈ before, b.Runnable gold.inventory gold.docId) ∧
          c.RefusedWith gold.inventory gold.docId e := by
  refine ⟨?_, ?_, ?_⟩
  · constructor
    · rintro ⟨checks, records, h⟩
      obtain ⟨gold, parse, results, hgold, hparse, hcases, _⟩ := run_eq_ok_iff.mp h
      have hall := exists_mapM_iff.mp ⟨results, hcases⟩
      exact ⟨gold, parse, hgold, hparse, fun c hc => exists_runCase_iff.mp (hall c hc)⟩
    · rintro ⟨gold, parse, hgold, hparse, hall⟩
      have hread : ∀ c ∈ f.cases,
          ∃ result, runCase (f.aligner ⟨gold, parse⟩) gold.docId c = .ok result :=
        fun c hc => exists_runCase_iff.mpr (hall c hc)
      obtain ⟨results, hcases⟩ := exists_mapM_iff.mpr hread
      exact ⟨_, _, run_eq_ok_iff.mpr ⟨gold, parse, results, hgold, hparse, hcases, rfl⟩⟩
  · intro gold parse checks records hgold hparse h
    rw [run_of_annotated hgold hparse, map_eq_ok_iff] at h
    obtain ⟨results, hcases, hresult⟩ := h
    obtain ⟨rfl, _⟩ := Prod.mk.inj hresult
    have hall := forall₂_checkedAs hcases
    rw [aligner_eq] at hall
    refine ⟨results.map Prod.fst, hall, ?_, ?_, ?_, ?_⟩
    · rw [Checks.passed_ofList]
      rfl
    · rw [Checks.failed_ofList]
      simp [Outcome.isPassed]
    · rw [Checks.passed_ofList, Checks.failed_ofList]
      exact List.filter_append_perm _ _
    · rw [Checks.total_ofList, hall.length_eq]
  · intro e
    rw [run_eq_error_iff]
    simp only [mapM_runCase_eq_error_iff, inventory_aligner]

/-- Two of three cases pass, and the lists keep them in order.  The first one passes through the
role table and its base filler, which the set-up puts first.  A case that expects a mention that is
not there is refused for that, although its span is no span either. -/
theorem run_checks_dog_barks :
    let document : FixtureDocument :=
      { id := "d", text := "dog barks", trees := ["(S (NP (NN dog)) (VP* (VB barks)))"] }
    let dog : FixtureArgument := { id := "A", kind := "entity", extent := "0-2", role := "Agent" }
    let events : List FixtureEvent :=
      [{ id := "e", mentions := [{ id := "m", eventType := "E", arguments := [dog] }] }]
    let case := fun id argument expect : String =>
      ({ id, eventType := "E", role := "Agent", argument, expect } : Case)
    let first : Case :=
      { case "r1" "4-8" "A" with
        role := "Giver", baseFiller := some "0-2", justifications := some "0-8,0-2"
        realis := some "Other", strategy := some 0 }
    let fixture : Fixture :=
      { document, events, config := { relaxWithHeads := false, views := [.baseFiller] }
        roles := some (RoleTable.ofList [("Agent", "Giver")])
        cases := [first, case "r2" "4-8" "A", case "r3" "4-8" "unmatched"] }
    let refused : Fixture := { document := { id := "d" }, events, cases := [case "r1" "8-4" "B"] }
    (∃ gold parse checks records, fixture.gold = .ok gold ∧ fixture.parse = .ok parse ∧
      fixture.run = .ok (checks, records) ∧ checks.passed.map Check.response = ["r1", "r3"] ∧
      checks.failed.map Check.response = ["r2"] ∧ checks.total = 3) ∧
    refused.run = .error (.unknownMention "r1" ⟨"B"⟩) := by
  intro document dog events case first fixture refused
  constructor
  · have hlists : (fixture.run.toOption.map fun result =>
        (result.1.passed.map Check.response, result.1.failed.map Check.response)) =
          some (["r1", "r3"], ["r2"]) := by
      decide +kernel
    obtain ⟨hruns, hchecks, _⟩ := run_checks_each_case fixture
    obtain ⟨⟨checks, records⟩, hrun, hnames⟩ := toOption_map_eq_some_iff.mp hlists
    obtain ⟨hpassed, hfailed⟩ := Prod.mk.inj hnames
    obtain ⟨gold, parse, hgold, hparse, _⟩ := hruns.mp ⟨checks, records, hrun⟩
    obtain ⟨_, _, _, _, _, htotal⟩ := hchecks gold parse _ _ hgold hparse hrun
    exact ⟨gold, parse, checks, records, hgold, hparse, hrun, hpassed, hfailed, htotal⟩
  · have hids : (refused.gold.toOption.map fun gold =>
        gold.inventory.mentions.map GoldMention.id) = some [⟨"A"⟩] := by
      decide +kernel
    obtain ⟨gold, hgold, hnames⟩ := toOption_map_eq_some_iff.mp hids
    have hunknown : ¬ (case "r1" "8-4" "B").ExpectsKnown gold.inventory := by
      rintro (hunmatched | ⟨m, hm, hid⟩)
      · exact absurd hunmatched (by decide)
      · have hmem : m.id ∈ [MentionId.mk "A"] := hnames ▸ List.mem_map_of_mem hm
        rw [hid] at hmem
        exact absurd hmem (by decide)
    refine ((run_checks_each_case refused).2.2 _).mpr (.inr (.inr ⟨gold, none, hgold, rfl, ?_⟩))
    exact ⟨[], case "r1" "8-4" "B", [], rfl, by simp, .unknownMention hunknown⟩

end Fixture

end MentionAlign
