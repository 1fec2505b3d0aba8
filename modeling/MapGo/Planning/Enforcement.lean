import MapGo.Planning.Protocol

/-! What enforcement promises of a successful plan. A result leaves as a success only on a report
that does not block it; the report is of that very plan unless the review of a retry is skipped. -/
namespace MapGo.Planning

open Postcondition Orchestrator

/-- The result is the plan of a completed review that does not block it. -/
def HasOwnReview (result : AIPlanResult) (o : Orchestrator) : Prop :=
  ∃ review ∈ o.reviews, review.solve = o.solves ∧ review.plan = result.plan ∧
    review.report.verdict ≠ .needsClarification

namespace AIPlanResult
variable {result : AIPlanResult} {report : ReviewReport} {request : AIPlanRequest}
  {mode : AgentWorkflowMode} {questions : List ClarificationQuestion}

@[simp] theorem clarify_status : (result.clarify questions).status = .needClarification := rfl

@[simp] theorem unreviewed_status : result.unreviewed.status = .needClarification := rfl

/-- Enforcement keeps the plan of a report that does not block. -/
theorem underReview_plan (result : AIPlanResult) (mode : AgentWorkflowMode)
    (passes : report.verdict ≠ .needsClarification) :
    (result.underReview mode report).plan = result.plan := by
  simp only [underReview, enforceReview]
  split
  · split
    · contradiction
    all_goals rfl
  · rfl

theorem underReview_status (blocks : report.verdict = .needsClarification) :
    (result.underReview .enforce report).status = .needClarification := by
  simp only [underReview, if_true, enforceReview, blocks, clarify_status]

/-- Confirmation passes a success on as it is, or asks. -/
theorem confirm_success (success : (result.confirm request).status = .success) :
    (result.confirm request).plan = result.plan ∧ result.status = .success ∧
      selectHumanConfirmationQuestions request result.plan = [] := by
  simp only [confirm] at success ⊢
  split at success
  · contradiction
  · rename_i passed
    refine ⟨by rw [if_neg passed], success, ?_⟩
    by_contra asked
    exact passed ⟨success, asked⟩

end AIPlanResult

variable {script : Script} {settings : Settings} {request : AIPlanRequest} {report : ReviewReport}
  {result : AIPlanResult} {o : Orchestrator}

/-- A successful retry leaves without a review of its own. -/
def Unreviewed (script : Script) (settings : Settings) (request : AIPlanRequest) : Prop :=
  ∃ report result o, RetrySolved script settings report result o ∧ result.status = .success ∧
    o.SkipsReview script.secondReview ∧
    selectHumanConfirmationQuestions request result.plan = [] ∧ script.finalize ≠ none

theorem HasOwnReview.later {last : AIPlanResult} {later : Orchestrator} (own : HasOwnReview result o)
    (advance : Advance 0 o later) (same : last.plan = result.plan) : HasOwnReview last later := by
  obtain ⟨review, member, solve, plan, passes⟩ := own
  exact ⟨review, advance.reviews ▸ member, by rw [solve, advance.solved, Nat.add_zero],
    plan.trans same.symm, passes⟩

theorem own_review {later : Orchestrator} (completed : Reviewed result.plan report o later)
    (passes : report.verdict ≠ .needsClarification) : HasOwnReview result later :=
  ⟨⟨o.solves, result.plan, report⟩, by simp [completed.reviews], completed.solved.symm, rfl, passes⟩

/-- What enforcement makes of a reviewed plan is no success without a review that passes it. -/
theorem enforced_review (result : AIPlanResult) {later : Orchestrator}
    (completed : Reviewed result.plan report o later)
    (success : (result.underReview .enforce report).status = .success) :
    HasOwnReview (result.underReview .enforce report) later := by
  by_cases passes : report.verdict = .needsClarification
  · rw [AIPlanResult.underReview_status passes] at success
    contradiction
  · exact (own_review completed passes).later (.refl _) (AIPlanResult.underReview_plan _ _ passes)

/-- The state before the confirmation gate. -/
def Enforced (script : Script) (settings : Settings) (result : AIPlanResult) (o : Orchestrator) :
    Prop :=
  result.status = .success → HasOwnReview result o ∨ ∃ report retried before,
    RetrySolved script settings report retried before ∧ retried.plan = result.plan ∧
      before.SkipsReview script.secondReview

theorem reviewAgain_enforced (retried : RetrySolved script settings report result o)
    (mode : o.settings.mode = .enforce) :
    Ensures (fun _ => True) (fun last => Enforced script settings last.1 last.2)
      (script.reviewAgain o result report) := by
  by_cases stranded : Stranded result o
  · rw [Script.reviewAgain, review_stranded retried.handed stranded.1 stranded.2]
    trivial
  · refine Ensures.bind ((review_spec retried.handed (Stranded.settled stranded)).tolerate fun _ _ => trivial)
      fun last outcome => ?_
    obtain ⟨second, later⟩ := last
    cases second with
    | none =>
        intro success
        have passes : report.verdict ≠ .needsClarification := by simp [retried.verdict]
        have kept := AIPlanResult.underReview_plan result later.settings.mode passes
        exact .inr ⟨report, result, o, retried, kept.symm, outcome.1⟩
    | some second =>
        intro success
        rw [outcome.2.settings, mode] at success ⊢
        exact .inl (enforced_review { result with criticReview := some second } outcome.2 success)

theorem finish_ran (script : Script) (o : Orchestrator) (result : AIPlanResult) :
    Ensures (fun _ => True) (fun last => last.1 = result ∧ Advance 0 o last.2 ∧
      script.finalize ≠ none) (script.finish o result) := by
  cases final : script.finalize with
  | none => simp [Script.finish, Orchestrator.finalize, final, raise, bind, Except.bind]
  | some execution =>
      refine (Script.finish_spec.tolerate fun _ _ => trivial).mono fun _ ⟨same, advance⟩ => ?_
      exact ⟨same, advance, by simp⟩

theorem reviewed_enforced {intent : PlanIntent} {taken solved : Orchestrator} {first : AIPlanResult}
    (took : script.intake settings = .ok ((intent, []), taken))
    (ran : script.solve taken intent = .ok (first, solved))
    (settled : first.status ≠ .needClarification) (handed : Handed first solved)
    (mode : solved.settings.mode = .enforce) :
    Ensures (fun _ => True) (fun last => Enforced script settings last.1 last.2)
      (script.reviewed solved intent first) := by
  refine reviewed_rule (fun _ _ => trivial) handed settled ?skipped ?kept ?again
  case skipped =>
    intro later advance success
    rw [advance.settings, mode] at success
    contradiction
  case kept =>
    intro report later completed success
    rw [completed.settings, mode] at success ⊢
    exact .inl (enforced_review { first with criticReview := some report } completed success)
  case again =>
    intro report reviewed result o read retry allowed again _ completed went
    refine reviewAgain_enforced ⟨⟨intent, taken, first, solved, reviewed, took, ran, settled, read,
      allowed, again⟩, retry⟩ ?_
    rw [went.settings, completed.settings, mode]

theorem plan_enforced (mode : settings.mode = .enforce) :
    Ensures (fun _ => True) (fun last => last.1.status = .success → HasOwnReview last.1 last.2 ∨
      Unreviewed script settings request) (script.plan settings request) := by
  refine plan_rule (fun _ _ => trivial) ?asks ?review
  case asks =>
    intro result o asks
    refine (finish_ran script o result).mono fun last ⟨same, _⟩ success => ?_
    rw [same, asks] at success
    contradiction
  case review =>
    intro intent taken first solved took ran settled handed start
    refine Ensures.bind (reviewed_enforced took ran settled handed (start.settings ▸ mode))
      fun last enforced => ?_
    refine (finish_ran script last.2 _).mono fun _ ⟨same, advance, final⟩ success => ?_
    rw [same] at success ⊢
    obtain ⟨plan, passed, unasked⟩ := AIPlanResult.confirm_success success
    rcases enforced passed with own | ⟨report, retried, before, again, kept, skips⟩
    · exact .inl (own.later advance plan)
    · refine .inr ⟨report, retried, before, again, ?_, skips, by rw [kept]; exact unasked, final⟩
      rw [AIPlanResult.status, kept]
      exact passed

/-- At the review of a retry the first plan has been reviewed, the second has not. -/
theorem RetrySolved.history (retried : RetrySolved script settings report result o) :
    o.solves = 2 ∧ (∀ review ∈ o.reviews, review.solve = 1) ∧ settings.mode = .enforce := by
  obtain ⟨⟨intent, taken, first, solved, reviewed, took, ran, settled, read, allowed, again⟩,
    retry⟩ := retried
  obtain ⟨awaits, start⟩ := Script.intake_spec.result took
  obtain ⟨handed, went⟩ := (Script.solve_spec awaits).result ran
  obtain ⟨-, completed⟩ :=
    (review_spec handed fun asks => absurd asks settled).result read
  have second := ((Script.solveAgain_spec completed.awaits retry).result again).2
  have solves : solved.solves = 1 := by rw [went.solved, start.solved]; rfl
  refine ⟨by rw [second.solved, completed.solved, solves], ?_, ?_⟩
  · rw [second.reviews, completed.reviews, went.reviews, start.reviews, solves]
    intro review member
    rw [List.mem_singleton.mp member]
  · have mode : reviewed.settings.mode = .enforce := by
      simp only [retryAllowed, Bool.and_eq_true, decide_eq_true_eq] at allowed
      exact allowed.1.1
    rwa [completed.settings, went.settings, start.settings] at mode

/-- An unreviewed retry leaves the run as a success. -/
theorem Unreviewed.leaves (unreviewed : Unreviewed script settings request) :
    settings.mode = .enforce ∧ ∃ result o, script.plan settings request = .ok (result, o) ∧
      result.status = .success ∧ ¬ HasOwnReview result o := by
  obtain ⟨report, result, o, retried, success, skips, unasked, final⟩ := unreviewed
  obtain ⟨execution, finalized⟩ := Option.ne_none_iff_exists'.mp final
  have settled : result.status ≠ .needClarification := by simp [success]
  obtain ⟨later, skipped, advance⟩ :=
    review_skips result.plan retried.handed settled skips
  obtain ⟨solves, reviews, mode⟩ := retried.history
  let kept := result.underReview later.settings.mode report
  have plan : kept.plan = result.plan :=
    AIPlanResult.underReview_plan _ _ (by simp [retried.verdict])
  have again : script.reviewAgain o result report = .ok (kept, later) := by
    simp only [Script.reviewAgain, skipped, bind, Except.bind]
    rfl
  have passed : kept.confirm request = kept := by
    simp only [AIPlanResult.confirm, plan, unasked, ne_eq, not_true_eq_false, and_false, if_false]
  have finished : ∃ last, script.finish later kept = .ok (kept, last) := by
    simp [Script.finish, finalize, finalized, raise, bind, Except.bind, pure, Except.pure]
  obtain ⟨last, finished⟩ := finished
  refine ⟨mode, kept, last, ?_, by rw [AIPlanResult.status, plan]; exact success, ?_⟩
  · simp only [retried.plan_eq, again, bind, Except.bind, passed, finished]
  · rintro ⟨review, member, own, -⟩
    have ended := (Script.finish_spec.result finished).2
    rw [ended.reviews, advance.reviews] at member
    have first := reviews review member
    rw [ended.solved, advance.solved] at own
    omega

/-- A success has a passing review of its own exactly where no unreviewed retry leaves. -/
theorem plan_reviewed_iff (script : Script) (settings : Settings) (request : AIPlanRequest) :
    (settings.mode = .enforce → ∀ result o, script.plan settings request = .ok (result, o) →
      result.status = .success → HasOwnReview result o) ↔ ¬ Unreviewed script settings request := by
  constructor
  · intro holds unreviewed
    obtain ⟨mode, result, o, ran, success, without⟩ := unreviewed.leaves
    exact without (holds mode result o ran success)
  · intro reviewed mode result o ran success
    rcases (plan_enforced mode).result ran success with own | unreviewed
    · exact own
    · exact absurd unreviewed reviewed

section unreviewedRetry

/-- A search in which one provider call had to be recovered. -/
def recoveredSolve (planned : AIPlanResult) : SolveOutcome where
  recoveries := [done]
  search := done
  safety := done
  planner := some { output := planned }

/-- The plan of a group with an elder, whose retry changes nothing but its rating. -/
def elderPlan (rating : ℚ) : AIPlanResult where
  plan := { cafePlan with
    intent := { cafePlan.intent with hard := { elderly := 1 } }
    stops := [{ quietCafe with poi := { quietCafe.poi with rating := some rating } }] }
  planningState := .planReady

def recoveredScript : Script :=
  { ruledScript (elderPlan 3) (elderPlan (7 / 2)) with
    firstSolve := recoveredSolve (elderPlan 3)
    secondSolve := recoveredSolve (elderPlan (7 / 2)) }

/-- With the default limit of twelve hand-offs the retry is over it and leaves as a success. -/
theorem recovered_unreviewed : ∃ result o, recoveredScript.plan enforced {} = .ok (result, o) ∧
    result.status = .success ∧ ¬ HasOwnReview result o := by
  have history : (recoveredScript.plan enforced {}).toOption.map (fun last =>
      (last.1.status, last.2.solves, last.2.reviews.map CompletedReview.solve)) =
        some (.success, 2, [1]) := by decide +kernel
  cases ran : recoveredScript.plan enforced {} with
  | error => simp [ran, Except.toOption] at history
  | ok last =>
      simp only [ran, Except.toOption, Option.map_some, Option.some.injEq, Prod.mk.injEq] at history
      obtain ⟨success, solves, reviews⟩ := history
      refine ⟨last.1, last.2, rfl, success, ?_⟩
      rintro ⟨review, member, own, -⟩
      have first := List.mem_map_of_mem (f := CompletedReview.solve) member
      rw [reviews, own, solves] at first
      exact absurd first (by decide)

end unreviewedRetry

/-- No review that blocks its plan comes before a success. -/
def NoneBlocks (last : AIPlanResult × Orchestrator) : Prop :=
  last.1.status = .success → ∀ review ∈ last.2.reviews, review.report.verdict ≠ .needsClarification

theorem reviewAgain_noneBlocks (handed : Handed result o) (mode : o.settings.mode = .enforce)
    (clear : ∀ review ∈ o.reviews, review.report.verdict ≠ .needsClarification) :
    Ensures (fun _ => True) NoneBlocks (script.reviewAgain o result report) := by
  by_cases stranded : Stranded result o
  · rw [Script.reviewAgain, review_stranded handed stranded.1 stranded.2]
    trivial
  · refine Ensures.bind ((review_spec handed (Stranded.settled stranded)).tolerate
      fun _ _ => trivial) fun last outcome => ?_
    obtain ⟨second, later⟩ := last
    cases second with
    | none =>
        intro _
        rw [outcome.2.reviews]
        exact clear
    | some second =>
        intro success review member blocks
        rw [outcome.2.settings, mode] at success
        rw [outcome.2.reviews] at member
        rcases List.mem_append.mp member with old | new
        · exact clear review old blocks
        · rw [List.mem_singleton.mp new] at blocks
          rw [AIPlanResult.underReview_status blocks] at success
          contradiction

theorem plan_noneBlocks (mode : settings.mode = .enforce) :
    Ensures (fun _ => True) NoneBlocks (script.plan settings request) := by
  refine plan_rule (fun _ _ => trivial) ?asks ?review
  case asks =>
    intro result o asks
    refine (finish_ran script o result).mono fun last ⟨same, _⟩ success => ?_
    rw [same, asks] at success
    contradiction
  case review =>
    intro intent taken first solved took ran settled handed start
    have enforce : solved.settings.mode = .enforce := start.settings ▸ mode
    have none : solved.reviews = [] := start.reviews
    have reviewed : Ensures (fun _ => True) NoneBlocks (script.reviewed solved intent first) := by
      refine reviewed_rule (fun _ _ => trivial) handed settled ?skipped ?kept ?again
      case skipped =>
        intro later advance _ review member
        rw [advance.reviews, none] at member
        contradiction
      case kept =>
        intro report later completed success review member blocks
        rw [completed.settings, enforce] at success
        rw [completed.reviews, none] at member
        rw [List.mem_singleton.mp member] at blocks
        rw [AIPlanResult.underReview_status blocks] at success
        contradiction
      case again =>
        intro report reviewed result o _ retry _ _ handed completed went
        refine reviewAgain_noneBlocks handed ?_ ?_
        · rw [went.settings, completed.settings, enforce]
        · rw [went.reviews, completed.reviews, none]
          intro review member
          rw [List.mem_singleton.mp member]
          simp [retry]
    refine Ensures.bind reviewed fun last clear => ?_
    refine (finish_ran script last.2 _).mono fun _ ⟨same, advance, _⟩ success => ?_
    rw [same] at success
    rw [advance.reviews]
    exact clear (AIPlanResult.confirm_success success).2.1

/-- What a plan with a blocking finding meets: both critics block it, and an enforced run in which
one of them reviewed it does not return it as a success. -/
def BlockingHonoured (limits : CriticLimits) (plan : Plan) (response : ModelResponse) : Prop :=
  (Blocked plan → (ruleBasedReview plan).verdict = .needsClarification) ∧
    (∀ merged, modelReview limits plan response = some merged →
      (Blocked plan ∨ ∃ own, response.accepted limits = some own ∧ own.Blocking) →
        merged.verdict = .needsClarification) ∧
    ∀ (script : Script) (settings : Settings) (request : AIPlanRequest) result o,
      settings.mode = .enforce → script.plan settings request = .ok (result, o) → Blocked plan →
      (∃ review ∈ o.reviews, review.plan = plan ∧ (review.report = ruleBasedReview plan ∨
        modelReview limits plan response = some review.report)) →
      ¬ (result.status = .success ∧ result.plan = plan)

/-- Two stops at one place, with a much better candidate. -/
def twicePlan : AIPlanResult where
  plan := { cafePlan with stops := [quietCafe, quietCafe] }
  planningState := .planReady

end MapGo.Planning
