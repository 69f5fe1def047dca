import MentionAlign.Predicate

/-!
# What evaluating a predicate asks

An `Inquiry` is a computation that learns of its collaborators by asking them and in no other way.
Run in a context it comes with the questions that it put, in order, and they decide its course
(`Inquiry.run_congr`).  `Predicate.inquiry` evaluates a predicate in this form, knowing beforehand
only whether there is an oracle to ask, and `evaluate_eq_run` says that evaluation does the same.

So a predicate depends on no more than it asks: not on the role map when no part of it compares
roles, and not on the oracle when no view in it is headed.
-/

namespace MentionAlign

/-- A computation that asks its collaborators. -/
inductive Inquiry (α : Type) where
  | done (result : α)
  /-- The head of a span is asked for, and the answer is gone on with. -/
  | askHead (span : Span) (next : Option Span → Inquiry α)
  /-- The counterpart of a gold role is asked for, and the answer is gone on with. -/
  | askRole (gold : String) (next : Option String → Inquiry α)

/-- Both contexts give a question the same answer. -/
def MatchContext.AnswersAlike (ctx ctx' : MatchContext) : Call → Prop
  | .head span => ctx.oracle.bind (· span) = ctx'.oracle.bind (· span)
  | .role gold => ctx.roles gold = ctx'.roles gold

namespace Inquiry

variable {α β : Type}

/-- Goes on with the result of an inquiry. -/
def bind : Inquiry α → (α → Inquiry β) → Inquiry β
  | done result, f => f result
  | askHead span next, f => askHead span fun head => (next head).bind f
  | askRole gold next, f => askRole gold fun role => (next role).bind f

/-- The result of an inquiry in a context, along with the questions put, in order. -/
def run (ctx : MatchContext) : Inquiry α → α × List Call
  | done result => (result, [])
  | askHead span next =>
    let rest := (next (ctx.oracle.bind (· span))).run ctx
    (rest.1, .head span :: rest.2)
  | askRole gold next =>
    let rest := (next (ctx.roles gold)).run ctx
    (rest.1, .role gold :: rest.2)

/-- What is gone on with puts its questions behind those put before. -/
theorem run_bind (ctx : MatchContext) (x : Inquiry α) (f : α → Inquiry β) :
    (x.bind f).run ctx =
      (((f (x.run ctx).1).run ctx).1, (x.run ctx).2 ++ ((f (x.run ctx).1).run ctx).2) := by
  induction x with
  | done result => rfl
  | askHead span next ih => simp only [bind, run, ih, List.cons_append]
  | askRole gold next ih => simp only [bind, run, ih, List.cons_append]

/-- **The answers decide the course.**  Contexts that answer alike what is asked in one of them see
the same run. -/
theorem run_congr {ctx ctx' : MatchContext} {x : Inquiry α}
    (h : ∀ c ∈ (x.run ctx).2, ctx.AnswersAlike ctx' c) : x.run ctx = x.run ctx' := by
  induction x with
  | done result => rfl
  | askHead span next ih =>
      obtain ⟨hfirst, hrest⟩ := List.forall_mem_cons.mp h
      have halike : ctx.oracle.bind (· span) = ctx'.oracle.bind (· span) := hfirst
      rw [run, run, ih _ hrest, halike]
  | askRole gold next ih =>
      obtain ⟨hfirst, hrest⟩ := List.forall_mem_cons.mp h
      have halike : ctx.roles gold = ctx'.roles gold := hfirst
      rw [run, run, ih _ hrest, halike]

end Inquiry

/-- Finds the span of a view.  A head view asks for the head, if there is an oracle to ask. -/
def ResponseView.inquiry (view : ResponseView) (response : Response) (hasOracle : Bool) :
    Inquiry Span :=
  let span := view.kind.extract response
  if view.headed && hasOracle then .askHead span fun head => .done (head.getD span)
  else .done span

/-- The span that a view shows is found by the questions that showing it asks. -/
theorem ResponseView.run_inquiry (view : ResponseView) (response : Response) (ctx : MatchContext) :
    (view.inquiry response ctx.oracle.isSome).run ctx =
      (view.extract response ctx.oracle, (view.asked response ctx.oracle).map Call.head) := by
  unfold inquiry extract asked
  cases hheaded : view.headed with
  | false => rfl
  | true =>
      cases horacle : ctx.oracle with
      | none => rfl
      | some oracle =>
          have hhead : (oracle (view.kind.extract response)).getD (view.kind.extract response) =
              (view.kind.extract response).resolve oracle := by
            rw [Span.resolve, Span.refine, Option.bind_some]
            cases oracle (view.kind.extract response) <;> rfl
          simp [Inquiry.run, horacle, hhead]

/-- A view that is not headed asks for no head, and neither does one without an oracle. -/
theorem ResponseView.asked_eq_nil {view : ResponseView} {oracle : Option HeadOracle}
    (response : Response) (h : view.headed = false ∨ oracle = none) :
    view.asked response oracle = [] := by
  rcases h with hheaded | rfl
  · simp [asked, hheaded]
  · simp [asked]

/-- The inquiry of a view that is not headed asks nothing, oracle or not. -/
theorem ResponseView.inquiry_of_not_headed {view : ResponseView} (h : view.headed = false)
    (response : Response) (hasOracle : Bool) :
    view.inquiry response hasOracle = .done (view.kind.extract response) := by
  simp [inquiry, h]

namespace Predicate

/-- Evaluates a predicate by asking. -/
def inquiry (response : Response) (mention : GoldMention) (hasOracle : Bool) :
    Predicate → Inquiry Bool
  | exact view gold =>
    (view.inquiry response hasOracle).bind fun span => .done (span == gold.extract mention)
  | containment responseExtent responseHead goldExtent goldHead =>
    (responseExtent.inquiry response hasOracle).bind fun re =>
      (responseHead.inquiry response hasOracle).bind fun rh =>
        let ge := goldExtent.extract mention
        let gh := goldHead.extract mention
        .done (covers re ge rh gh || covers ge re rh gh)
  | roleMatch => .askRole mention.role fun role => .done (role == some response.role)
  | both first second =>
    (first.inquiry response mention hasOracle).bind fun holds =>
      if holds then second.inquiry response mention hasOracle else .done false

/-- The response views that a predicate shows. -/
def responseViews : Predicate → List ResponseView
  | exact view _ => [view]
  | containment responseExtent responseHead _ _ => [responseExtent, responseHead]
  | roleMatch => []
  | both first second => first.responseViews ++ second.responseViews

variable {response : Response} {mention : GoldMention} {ctx : MatchContext} {p q r : Predicate}

/-- **Evaluation is an inquiry.**  Its verdict and its questions are those of an inquiry that knows
beforehand only whether there is an oracle. -/
theorem evaluate_eq_run (p : Predicate) (response : Response) (mention : GoldMention)
    (ctx : MatchContext) :
    p.evaluate response mention ctx =
      (p.inquiry response mention ctx.oracle.isSome).run ctx := by
  induction p with
  | exact view gold =>
      simp only [inquiry, Inquiry.run_bind, ResponseView.run_inquiry, Inquiry.run, List.append_nil]
      rfl
  | containment responseExtent responseHead goldExtent goldHead =>
      simp only [inquiry, Inquiry.run_bind, ResponseView.run_inquiry, Inquiry.run, List.append_nil,
        ← List.map_append]
      rfl
  | roleMatch => rfl
  | both first second ihfirst ihsecond =>
      rw [inquiry, Inquiry.run_bind, ← ihfirst, evaluate]
      split
      · rw [← ihsecond]
      · rw [Inquiry.run, List.append_nil]

/-- A conjunction asks nothing that none of its parts asks. -/
theorem notMem_calls_both {c : Call} (hp : c ∉ p.calls response mention ctx)
    (hq : c ∉ q.calls response mention ctx) : c ∉ (both p q).calls response mention ctx := by
  rw [calls_both, List.mem_append]
  rintro (hmem | hmem)
  · exact hp hmem
  · split at hmem
    · exact hq hmem
    · exact absurd hmem List.not_mem_nil

/-- Only a predicate that compares roles asks for the counterpart of one. -/
theorem role_notMem_calls (h : p.isRoleGated = false) (gold : String) :
    .role gold ∉ p.calls response mention ctx := by
  induction p with
  | exact view _ => simp [calls, evaluate]
  | containment _ _ _ _ => simp [calls, evaluate]
  | roleMatch => exact absurd h (by simp [isRoleGated])
  | both first second ihfirst ihsecond =>
      obtain ⟨hfirst, hsecond⟩ := Bool.or_eq_false_iff.mp h
      exact notMem_calls_both (ihfirst hfirst) (ihsecond hsecond)

/-- Only a headed view asks for a head, and only where there is an oracle. -/
theorem head_notMem_calls
    (h : (∀ view ∈ p.responseViews, view.headed = false) ∨ ctx.oracle = none) (span : Span) :
    .head span ∉ p.calls response mention ctx := by
  induction p with
  | exact view _ =>
      have hview := ResponseView.asked_eq_nil response
        (h.imp_left fun hviews => hviews view List.mem_cons_self)
      simp [calls, evaluate, hview]
  | containment responseExtent responseHead _ _ =>
      have hextent := ResponseView.asked_eq_nil response
        (h.imp_left fun hviews => hviews responseExtent (by simp [responseViews]))
      have hhead := ResponseView.asked_eq_nil response
        (h.imp_left fun hviews => hviews responseHead (by simp [responseViews]))
      simp [calls, evaluate, hextent, hhead]
  | roleMatch => simp [calls, evaluate]
  | both first second ihfirst ihsecond =>
      have hfirst := ihfirst (h.imp_left fun hviews view hview =>
        hviews view (List.mem_append_left _ hview))
      have hsecond := ihsecond (h.imp_left fun hviews view hview =>
        hviews view (List.mem_append_right _ hview))
      exact notMem_calls_both hfirst hsecond

/-- A predicate without headed views is evaluated by the same inquiry, oracle or not. -/
theorem inquiry_of_not_headed (h : ∀ view ∈ p.responseViews, view.headed = false)
    (hasOracle hasOracle' : Bool) :
    p.inquiry response mention hasOracle = p.inquiry response mention hasOracle' := by
  induction p with
  | exact view _ =>
      have hview := h view List.mem_cons_self
      simp only [inquiry, ResponseView.inquiry_of_not_headed hview]
  | containment responseExtent responseHead _ _ =>
      obtain ⟨hextent, hhead⟩ := List.forall_mem_cons.mp h
      have hhead := List.forall_mem_singleton.mp hhead
      simp only [inquiry, ResponseView.inquiry_of_not_headed hextent,
        ResponseView.inquiry_of_not_headed hhead]
  | roleMatch => rfl
  | both first second ihfirst ihsecond =>
      obtain ⟨hfirst, hsecond⟩ := List.forall_mem_append.mp h
      simp only [inquiry, ihfirst hfirst, ihsecond hsecond]

/-- A predicate that compares no roles is evaluated alike under any two role maps. -/
theorem evaluate_eq_of_not_isRoleGated (h : p.isRoleGated = false) (oracle : Option HeadOracle)
    (roles roles' : RoleMap) :
    p.evaluate response mention { oracle, roles } =
      p.evaluate response mention { oracle, roles := roles' } := by
  rw [evaluate_eq_run, evaluate_eq_run]
  apply Inquiry.run_congr
  rw [← evaluate_eq_run]
  intro c hc
  cases c with
  | head span => rfl
  | role gold => exact absurd hc (role_notMem_calls h gold)

/-- A predicate without headed views is evaluated alike under any two oracles. -/
theorem evaluate_eq_of_not_headed (h : ∀ view ∈ p.responseViews, view.headed = false)
    (oracle oracle' : Option HeadOracle) (roles : RoleMap) :
    p.evaluate response mention { oracle, roles } =
      p.evaluate response mention { oracle := oracle', roles } := by
  have hrun : p.evaluate response mention { oracle, roles } =
      (p.inquiry response mention oracle'.isSome).run { oracle, roles } := by
    rw [inquiry_of_not_headed h oracle'.isSome oracle.isSome, evaluate_eq_run]
  rw [hrun, evaluate_eq_run]
  apply Inquiry.run_congr
  rw [← hrun]
  intro c hc
  cases c with
  | head span => exact absurd hc (head_notMem_calls (.inl h) span)
  | role gold => rfl

/-- Three predicates in a row are evaluated alike however they are paired. -/
theorem evaluate_both_assoc :
    (both (both p q) r).evaluate response mention ctx =
      (both p (both q r)).evaluate response mention ctx := by
  apply Prod.ext
  · change holds _ response mention ctx = holds _ response mention ctx
    simp only [holds_both, Bool.and_assoc]
  · change calls _ response mention ctx = calls _ response mention ctx
    cases hp : p.holds response mention ctx <;> simp [hp, List.append_assoc]

end Predicate

/-- **Evaluation asks what it needs.**  The verdict and the questions of a predicate are those of an
inquiry.  One that compares no roles asks for no role, and is evaluated alike under any two role
maps.  One without headed views, or evaluated without an oracle, asks for no head, and one without
headed views is evaluated alike under any two oracles.  A conjunction asks what its first part asks,
and then what its second part asks if the first one holds.  How three predicates in a row are paired
shows neither in the verdict nor in the questions, the comparison of roles or the label. -/
theorem Predicate.evaluate_asks_what_it_needs (p : Predicate) (response : Response)
    (mention : GoldMention) :
    (∀ ctx, p.evaluate response mention ctx =
      (p.inquiry response mention ctx.oracle.isSome).run ctx) ∧
    (p.isRoleGated = false → ∀ oracle roles roles',
      (∀ gold, .role gold ∉ p.calls response mention { oracle, roles }) ∧
      p.holds response mention { oracle, roles } =
        p.holds response mention { oracle, roles := roles' } ∧
      p.calls response mention { oracle, roles } =
        p.calls response mention { oracle, roles := roles' }) ∧
    (∀ ctx, ((∀ view ∈ p.responseViews, view.headed = false) ∨ ctx.oracle = none) →
      ∀ span, .head span ∉ p.calls response mention ctx) ∧
    ((∀ view ∈ p.responseViews, view.headed = false) → ∀ oracle oracle' roles,
      p.holds response mention { oracle, roles } =
        p.holds response mention { oracle := oracle', roles }) ∧
    (∀ q ctx, (both p q).calls response mention ctx =
      p.calls response mention ctx ++
        if p.holds response mention ctx then q.calls response mention ctx else []) ∧
    ∀ q r,
      (∀ ctx, (both (both p q) r).holds response mention ctx =
        (both p (both q r)).holds response mention ctx ∧
        (both (both p q) r).calls response mention ctx =
          (both p (both q r)).calls response mention ctx) ∧
      (both (both p q) r).isRoleGated = (both p (both q r)).isRoleGated ∧
      (both (both p q) r).label = (both p (both q r)).label := by
  refine ⟨fun ctx => evaluate_eq_run p response mention ctx, ?_, ?_, ?_, ?_, ?_⟩
  · intro hfree oracle roles roles'
    have hsame : p.evaluate response mention { oracle, roles } = _ :=
      evaluate_eq_of_not_isRoleGated hfree oracle roles roles'
    exact ⟨role_notMem_calls hfree, congrArg Prod.fst hsame, congrArg Prod.snd hsame⟩
  · exact fun ctx h => head_notMem_calls h
  · intro hplain oracle oracle' roles
    exact congrArg Prod.fst (evaluate_eq_of_not_headed hplain oracle oracle' roles)
  · exact fun q ctx => calls_both
  · intro q r
    refine ⟨fun ctx => ?_, ?_, ?_⟩
    · have hsame : (both (both p q) r).evaluate response mention ctx = _ := evaluate_both_assoc
      exact ⟨congrArg Prod.fst hsame, congrArg Prod.snd hsame⟩
    · simp only [isRoleGated, Bool.or_assoc]
    · simp only [label, String.append_assoc]

/-- The heads agree whatever the roles are, and nothing asks for these; without a table nothing asks
for a head.  The spans differ with a table or without it, and behind them the heads are not asked
for. -/
theorem Predicate.evaluate_asks_what_it_needs_in_the_square :
    let span : Span := { start := 113, stop := 125 }
    let square : Span := { start := 120, stop := 125 }
    let response : Response :=
      { docId := "d", eventType := "E", role := "Place", argument := { text := "", span } }
    let mention := GoldMention.entity
      { id := ⟨"s"⟩, entity := "E1", extent := square, role := "Location" }
    let table := HeadOracle.ofPairs [(span, square)]
    let spans := exact (.plain .canonicalArgument) .extent
    let heads := exact (.head .canonicalArgument) .headOrExtent
    heads.isRoleGated = false ∧
    heads.holds response mention { oracle := some table, roles := .identity } = true ∧
    heads.holds response mention { oracle := some table, roles := fun _ => none } = true ∧
    (∀ gold, .role gold ∉ heads.calls response mention { oracle := some table, roles := some }) ∧
    (∀ asked, .head asked ∉ heads.calls response mention { oracle := none, roles := some }) ∧
    spans.holds response mention { oracle := some table, roles := some } =
      spans.holds response mention { oracle := none, roles := some } ∧
    (both spans heads).calls response mention { oracle := some table, roles := some } = [] := by
  intro span square response mention table spans heads
  obtain ⟨-, hroles, hheads, -⟩ := evaluate_asks_what_it_needs heads response mention
  obtain ⟨-, -, -, horacle, hboth, -⟩ := evaluate_asks_what_it_needs spans response mention
  have hplain : ∀ view ∈ spans.responseViews, view.headed = false := by
    simp [spans, responseViews, ResponseView.plain]
  have hholds : heads.holds response mention { oracle := some table, roles := .identity } = true :=
    rfl
  obtain ⟨hnone, hsame, -⟩ := hroles rfl (some table) .identity fun _ => none
  refine ⟨rfl, hholds, hsame ▸ hholds, hnone, hheads _ (.inr rfl), horacle hplain _ _ _, ?_⟩
  rw [hboth]
  rfl

end MentionAlign
