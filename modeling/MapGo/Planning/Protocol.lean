import MapGo.Planning.Critic
import MapGo.Planning.Handoffs

/-! The message protocol of whole planning runs. Every stage finds the message it waits for, up to
the review of a retry: a retry that asks for clarification answers the supervisor, while its
review still takes from the critic's queue whenever the critic may run. -/
namespace MapGo.Planning

open Postcondition Orchestrator

/-- The run is at the review of a retry, which `report` asked for and which gave `result`. -/
structure RetrySolved (script : Script) (settings : Settings) (report : ReviewReport)
    (result : AIPlanResult) (o : Orchestrator) : Prop where
  path : ∃ intent taken first solved reviewed,
    script.intake settings = .ok ((intent, []), taken) ∧
    script.solve taken intent = .ok (first, solved) ∧ first.status ≠ .needClarification ∧
    solved.review first.plan script.firstReview = .ok (some report, reviewed) ∧
    reviewed.retryAllowed = true ∧ script.solveAgain reviewed intent report = .ok (result, o)
  verdict : report.verdict = .retryWithSoftAdjustments

variable {script : Script} {settings : Settings} {request : AIPlanRequest} {report : ReviewReport}
  {result : AIPlanResult} {o : Orchestrator}

/-- The first solve does not ask for clarification where it comes to a review. -/
theorem review_settled {first : AIPlanResult} (settled : first.status ≠ .needClarification) :
    first.status = .needClarification → o.mayRunCritic = false := fun asks => absurd asks settled

theorem RetrySolved.handed (retried : RetrySolved script settings report result o) :
    Handed result o := by
  obtain ⟨⟨intent, taken, first, solved, reviewed, took, ran, settled, read, -, again⟩, retry⟩ :=
    retried
  obtain ⟨awaits, -⟩ := Script.intake_spec.result took
  obtain ⟨handed, -⟩ := (Script.solve_spec awaits).result ran
  obtain ⟨-, completed⟩ := (review_spec handed (review_settled settled)).result read
  exact ((Script.solveAgain_spec completed.awaits retry).result again).1

theorem RetrySolved.plan_eq (retried : RetrySolved script settings report result o) :
    script.plan settings request = (script.reviewAgain o result report >>= fun reviewed =>
      script.finish reviewed.2 (reviewed.1.confirm request)) := by
  obtain ⟨⟨intent, taken, first, solved, reviewed, took, ran, settled, read, allowed, again⟩,
    retry⟩ := retried
  have outcome : script.reviewed solved intent first = script.reviewAgain o result report := by
    simp only [Script.reviewed, read, bind, Except.bind, retry, allowed, and_self, if_true, again]
  simp only [Script.plan, took, bind, Except.bind, ran, settled, outcome, ne_eq, not_true_eq_false,
    if_false]

section rules
variable {tolerated : Stop → Prop} {post : AIPlanResult × Orchestrator → Prop}
  (calm : ∀ stop, Calm stop → tolerated stop)
include calm

/-- A run ends with questions, or its first plan comes to a review. -/
theorem plan_rule
    (asks : ∀ result o, result.status = .needClarification →
      Ensures tolerated post (script.finish o result))
    (review : ∀ intent taken first solved, script.intake settings = .ok ((intent, []), taken) →
      script.solve taken intent = .ok (first, solved) → first.status ≠ .needClarification →
      Handed first solved → Advance 1 (fresh settings) solved →
      Ensures tolerated post (script.reviewed solved intent first >>= fun reviewed =>
        script.finish reviewed.2 (reviewed.1.confirm request))) :
    Ensures tolerated post (script.plan settings request) := by
  refine Ensures.bind_ran (Script.intake_spec.tolerate calm)
    fun understood took ⟨awaits, start⟩ => ?_
  obtain ⟨⟨intent, questions⟩, taken⟩ := understood
  dsimp only
  split
  · exact asks _ _ rfl
  · rename_i none
    cases not_not.mp none
    refine Ensures.bind_ran ((Script.solve_spec awaits).tolerate calm)
      fun planned ran ⟨handed, went⟩ => ?_
    obtain ⟨first, solved⟩ := planned
    dsimp only
    split
    · rename_i unclear
      exact asks _ _ unclear
    · rename_i settled
      exact review intent taken first solved took ran settled handed (start.trans went)

/-- The review of the first plan is skipped, keeps the plan, or has it solved again. -/
theorem reviewed_rule {intent : PlanIntent} {first : AIPlanResult} {solved : Orchestrator}
    (handed : Handed first solved) (settled : first.status ≠ .needClarification)
    (skipped : ∀ later, Advance 0 solved later →
      post (if later.settings.mode = .enforce then first.unreviewed else first, later))
    (kept : ∀ report later, Reviewed first.plan report solved later →
      post ({ first with criticReview := some report }.underReview later.settings.mode report, later))
    (again : ∀ report reviewed result o,
      solved.review first.plan script.firstReview = .ok (some report, reviewed) →
      report.verdict = .retryWithSoftAdjustments → reviewed.retryAllowed = true →
      script.solveAgain reviewed intent report = .ok (result, o) → Handed result o →
      Reviewed first.plan report solved reviewed → Advance 1 reviewed o →
      Ensures tolerated post (script.reviewAgain o result report)) :
    Ensures tolerated post (script.reviewed solved intent first) := by
  refine Ensures.bind_ran ((review_spec handed fun asks => absurd asks settled).tolerate calm)
    fun last read outcome => ?_
  obtain ⟨review, later⟩ := last
  cases review with
  | none => exact skipped later outcome.2
  | some report =>
      dsimp only
      split
      · rename_i retry
        refine Ensures.bind_ran ((Script.solveAgain_spec outcome.2.awaits retry.1).tolerate calm)
          fun planned ran ⟨handed, went⟩ => ?_
        exact again report later planned.1 planned.2 read retry.1 retry.2 ran handed outcome.2 went
      · exact kept report later outcome.2

end rules

/-- A retry whose plan asks for clarification while the critic may run. -/
def Stranded (result : AIPlanResult) (o : Orchestrator) : Prop :=
  result.status = .needClarification ∧ o.mayRunCritic = true

theorem Stranded.settled (kept : ¬ Stranded result o) (asks : result.status = .needClarification) :
    o.mayRunCritic = false :=
  Bool.eq_false_iff.mpr fun may => kept ⟨asks, may⟩

theorem reviewAgain_calm (handed : Handed result o) (kept : ¬ Stranded result o) :
    Ensures Calm (fun _ => True) (script.reviewAgain o result report) := by
  refine Ensures.bind (review_spec handed (Stranded.settled kept)) fun outcome _ => ?_
  obtain ⟨_ | second, later⟩ := outcome <;> trivial

theorem plan_calm (kept : ∀ report result o, RetrySolved script settings report result o →
    ¬ Stranded result o) : Ensures Calm (fun _ => True) (script.plan settings request) := by
  refine plan_rule (fun _ same => same) (fun _ _ _ => Script.finish_spec.mono fun _ _ => trivial)
    fun intent taken first solved took ran settled handed _ => ?_
  have review : Ensures Calm (fun _ => True) (script.reviewed solved intent first) := by
    refine reviewed_rule (fun _ same => same) handed settled (fun _ _ => trivial)
      (fun _ _ _ => trivial) fun report reviewed result o read retry allowed again handed _ _ => ?_
    exact reviewAgain_calm handed (kept report result o
      ⟨⟨intent, taken, first, solved, reviewed, took, ran, settled, read, allowed, again⟩, retry⟩)
  exact Ensures.bind review fun _ _ => Script.finish_spec.mono fun _ _ => trivial

/-- No run ends with a protocol error exactly where no retry is stranded. -/
theorem plan_protocol_iff (script : Script) (settings : Settings) (request : AIPlanRequest) :
    (∀ stop, script.plan settings request = .error stop → stop.protocolError = false) ↔
      ∀ report result o, RetrySolved script settings report result o →
        result.status = .needClarification → o.mayRunCritic = false := by
  constructor
  · intro ends report result o retried asks
    by_contra may
    have stuck : script.plan settings request = .error (.noPending .critic) := by
      rw [retried.plan_eq, Script.reviewAgain,
        review_stranded retried.handed asks (Bool.not_eq_false _ ▸ may)]
      rfl
    exact absurd (ends _ stuck) (by decide)
  · intro settled stop stuck
    have kept (report result o) (retried : RetrySolved script settings report result o) :
        ¬ Stranded result o := fun stranded =>
      absurd stranded.2 (by simp [settled report result o retried stranded.1])
    have ends : Ensures Calm (fun _ => True) (script.plan settings request) := plan_calm kept
    rwa [stuck] at ends

section strandedRetry

def quietCafe : PlanStop where
  poi := { id := some "B001", name := some "安静咖啡", source := some "mock", rating := some 3 }
  travel := { distanceMeters := some 500, confidence := some (9 / 10) }

/-- A plan that the rules send back for its rating. -/
def cafePlan : Plan where
  status := .success
  intent := { preferences := { preferHighRating := true } }
  stops := [quietCafe]
  explanation := some "就近选择"
  totalDistanceMeters := some 500
  totalTravelSeconds := some 420
  candidateRatings := [some 3, some (9 / 2)]

def done : Outcome Unit := some { output := () }

/-- A run in which the planner gives `first`, then `second`, and the rules review both. -/
def ruledScript (first second : AIPlanResult) : Script where
  start := done
  understand := some { output := (first.plan.intent, []) }
  planNext := done
  firstSolve := { search := done, safety := done, planner := some { output := first } }
  firstReview := some { output := ruleBasedReview first.plan }
  scheduled := some ()
  secondSolve := { search := done, safety := done, planner := some { output := second } }
  secondReview := some { output := ruleBasedReview second.plan }
  finalize := done

def enforced : Settings := { mode := .enforce }

def noPlan : AIPlanResult where
  plan := { cafePlan with status := .needClarification, stops := [] }
  planningState := .needClarification

/-- The retry finds no plan, and the critic waits for one. -/
theorem plan_stranded : (ruledScript ⟨cafePlan, .planReady, [], [], none⟩ noPlan).plan enforced {} =
    .error (.noPending .critic) :=
  stopped_eq_some.mp (by decide +kernel)

end strandedRetry

end MapGo.Planning
