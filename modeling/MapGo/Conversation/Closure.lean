import MapGo.Conversation.Answerable
import MapGo.Postcondition

/-! Who asks the questions of a planning run. The stages of the run are given what their agents
find; the questions that a result comes with are those of the last stage that has asked. -/
namespace MapGo.Conversation

open Postcondition
open MapGo.Route (TransportMode)
open MapGo.Planning (AIPlanRequest AIPlanResult AgentExecution AgentPlanStep AgentWorkflowMode
  ClarificationQuestion Orchestrator Outcome PlanIntent ReviewReport Script Settings SolveOutcome
  StepId selectHumanConfirmationQuestions)

variable {T : Texts} {L : Leaves}

/-- The same execution with another output. -/
def withOutput {α β : Type} (execution : AgentExecution α) (output : β) : AgentExecution β where
  output := output
  estimatedCostUsd := execution.estimatedCostUsd
  inputTokens := execution.inputTokens
  outputTokens := execution.outputTokens

/-- What the agents of one solve find; `none` is an exception. -/
structure SolveFindings where
  recoveries : List (Outcome Unit) := []
  search : Outcome SearchFindings
  weather : Option Unit := some ()
  safety : Outcome Unit
  planner : Outcome Routing

/-- What the agents of one run find. -/
structure Findings where
  start : Outcome Unit
  understand : Outcome ParsedIntent
  planNext : Outcome Unit
  firstSolve : SolveFindings
  firstReview : Outcome ReviewReport
  scheduled : Option Unit
  secondSolve : SolveFindings
  secondReview : Outcome ReviewReport
  finalize : Outcome Unit

/-- `request.task_poi_overrides` -/
def PlanRequest.taskPoiOverrides (request : PlanRequest L) : List (String × String) :=
  request .taskPoiOverrides

/-- What the stages behind the conversation read of a request. -/
def PlanRequest.planning (request : PlanRequest L) : AIPlanRequest :=
  let answers : {answers : List (String × Bool) //
    ∀ answer ∈ answers, answer.1 ∈ humanConfirmationKeys} := request .humanConfirmations
  { humanConfirmations := answers.val }

namespace SolveFindings
variable (T) (intent : ParsedIntent) (overrides : List (String × String)) (solve : SolveFindings)

/-- The questions of the search; `none` is an exception there. -/
def searched : Option (List ClarificationQuestion) :=
  solve.search.bind fun execution => searchQuestions intent T overrides execution.output

def questions : List ClarificationQuestion := (solve.searched T intent overrides).getD []

def outcome : SolveOutcome where
  recoveries := solve.recoveries
  search := (solve.searched T intent overrides).bind fun _ =>
    solve.search.map fun execution => withOutput execution ()
  weather := solve.weather
  safety := solve.safety
  planner := solve.planner.map fun execution => withOutput execution
    (plannerResult intent.toPlanIntent (solve.questions T intent overrides) execution.output)

end SolveFindings

namespace Findings
variable (T) (request : PlanRequest L) (found : Findings)

/-- The intent of the run; without one the run ends with its stage. -/
def intent : ParsedIntent := (found.understand.map AgentExecution.output).getD {}

def script : Script where
  start := found.start
  understand := found.understand.map fun execution => withOutput execution
    (execution.output.toPlanIntent, requiredQuestions request execution.output)
  planNext := found.planNext
  firstSolve := found.firstSolve.outcome T found.intent request.taskPoiOverrides
  firstReview := found.firstReview
  scheduled := found.scheduled
  secondSolve := found.secondSolve.outcome T found.intent request.taskPoiOverrides
  secondReview := found.secondReview
  finalize := found.finalize

end Findings

inductive Asker where
  | nobody | intent | search | routeTool | critic | confirmation
  deriving DecidableEq, Repr

/-- The stages that ask for fields of the request. -/
def Asker.asksRequest : Asker → Bool
  | .nobody | .intent | .search => true
  | .routeTool | .critic | .confirmation => false

/-- Who asks in a solve. -/
def SolveFindings.asker (T : Texts) (intent : ParsedIntent) (overrides : List (String × String))
    (solve : SolveFindings) : Asker :=
  if solve.questions T intent overrides ≠ [] then .search
  else match solve.planner.map AgentExecution.output with
    | some (.unavailable _ _) => .routeTool
    | _ => .nobody

/-- Who asks once a review is enforced. -/
def judged (mode : AgentWorkflowMode) (review : ReviewReport) (asker : Asker) : Asker :=
  if mode = .enforce ∧ review.verdict = .needsClarification then .critic else asker

/-- Whether the confirmation gate asks. -/
def gateAsks (request : AIPlanRequest) (result : AIPlanResult) : Bool :=
  decide (result.status = .success) &&
    !(selectHumanConfirmationQuestions request result.plan).isEmpty

namespace Findings
variable (T) (request : PlanRequest L) (found : Findings)

def secondAsker : Asker := found.secondSolve.asker T found.intent request.taskPoiOverrides

/-- Who asks after the first solve has made a plan. -/
def reviewedAsker (o : Orchestrator) (intent : PlanIntent) (result : AIPlanResult) :
    Except Planning.Stop Asker := do
  let (review, o) ← o.review result.plan found.firstReview
  match review with
  | none => return if o.settings.mode = .enforce then .critic else .nobody
  | some review =>
      if review.verdict = .retryWithSoftAdjustments ∧ o.retryAllowed then do
        let (result, o) ← (found.script T request).solveAgain o intent review
        let (secondReview, o) ← o.review result.plan found.secondReview
        match secondReview with
        | none => return found.secondAsker T request
        | some second => return judged o.settings.mode second (found.secondAsker T request)
      else return judged o.settings.mode review .nobody

/-- Who asks the questions of the result. -/
def asker (settings : Settings) : Except Planning.Stop Asker := do
  let ((intent, requiredQuestions), o) ← (found.script T request).intake settings
  if requiredQuestions ≠ [] then return .intent
  else
    let (result, o) ← (found.script T request).solve o intent
    if result.status = .needClarification then
      return found.firstSolve.asker T found.intent request.taskPoiOverrides
    else
      let (reviewed, _) ← (found.script T request).reviewed o intent result
      let asker ← found.reviewedAsker T request o intent result
      return if gateAsks request.planning reviewed then .confirmation else asker

end Findings

/-! ### The questions of each stage -/

/-- The fields that the stage asks for. -/
def AsksFor : Asker → List ClarificationQuestion → Prop
  | .nobody, questions => questions = []
  | .intent, questions => ∀ question ∈ questions, question.field ∈ requiredFields
  | .search, questions => ∀ question ∈ questions, PlaceField question.field
  | .routeTool, questions | .critic, questions | .confirmation, questions =>
      questions ≠ [] ∧ ∀ question ∈ questions, supportedField question.field = false

variable {asker : Asker} {questions : List ClarificationQuestion} {stored : PlanRequest L}

theorem AsksFor.answerable_iff (asks : AsksFor asker questions) :
    (∀ question ∈ questions, Answerable T stored question.field) ↔ asker.asksRequest = true := by
  have refused (some : questions ≠ [])
      (fields : ∀ question ∈ questions, supportedField question.field = false) :
      ¬ ∀ question ∈ questions, Answerable T stored question.field := by
    intro all
    obtain ⟨question, member⟩ := List.exists_mem_of_ne_nil questions some
    exact unanswerable (fields question member) (all question member)
  cases asker with
  | nobody =>
      obtain rfl : questions = [] := asks
      exact iff_of_true (List.forall_mem_nil _) rfl
  | intent => exact iff_of_true (fun q member => answerable_required (asks q member)) rfl
  | search => exact iff_of_true (fun q member => answerable_place (asks q member)) rfl
  | routeTool => exact iff_of_false (refused asks.1 asks.2) Bool.false_ne_true
  | critic => exact iff_of_false (refused asks.1 asks.2) Bool.false_ne_true
  | confirmation => exact iff_of_false (refused asks.1 asks.2) Bool.false_ne_true

section stages
variable {result later : AIPlanResult} {mode : AgentWorkflowMode} {review : ReviewReport}
  {request : AIPlanRequest} {graph : List AgentPlanStep} {solve : SolveOutcome}
  {o after : Orchestrator}

theorem underReview_asks (asks : AsksFor asker result.questions) :
    AsksFor (judged mode review asker) (result.underReview mode review).questions := by
  unfold judged AIPlanResult.underReview
  by_cases enforced : mode = .enforce
  · rw [if_pos enforced, AIPlanResult.enforceReview]
    cases verdict : review.verdict with
    | needsClarification =>
        rw [if_pos ⟨enforced, rfl⟩]
        have refused : supportedField "critic_review" = false := by decide
        exact ⟨List.cons_ne_nil _ _, List.forall_mem_singleton.mpr refused⟩
    | approved =>
        rw [if_neg (by simp)]
        exact asks
    | approvedWithWarnings =>
        rw [if_neg (by simp)]
        exact asks
    | retryWithSoftAdjustments =>
        rw [if_neg (by simp)]
        exact asks
  · rw [if_neg enforced, if_neg fun both => enforced both.1]
    exact asks

theorem judged_retry (verdict : review.verdict = .retryWithSoftAdjustments) :
    judged mode review asker = asker := by
  rw [judged, verdict, if_neg (by simp)]

theorem confirmation_refused {plan : Planning.Plan} {question : ClarificationQuestion}
    (member : question ∈ selectHumanConfirmationQuestions request plan) :
    supportedField question.field = false := by
  unfold selectHumanConfirmationQuestions at member
  split at member
  · contradiction
  · have asked := List.mem_of_mem_take member
    simp only [List.flatten_cons, List.flatten_nil, List.append_nil, List.mem_append] at asked
    rcases asked with walking | cost
    · split at walking
      · obtain rfl := List.mem_singleton.mp walking
        have refused : supportedField "human_confirmation.walking_distance" = false := by decide
        exact refused
      · contradiction
    · split at cost
      · obtain rfl := List.mem_singleton.mp cost
        have refused : supportedField "human_confirmation.estimated_cost" = false := by decide
        exact refused
      · contradiction

theorem confirm_asks (asks : AsksFor asker result.questions) :
    AsksFor (if gateAsks request result then .confirmation else asker)
      (result.confirm request).questions := by
  unfold AIPlanResult.confirm
  by_cases gate : result.status = .success ∧
      selectHumanConfirmationQuestions request result.plan ≠ []
  · have asks : gateAsks request result = true := by simp [gateAsks, gate]
    rw [asks, if_pos gate]
    exact ⟨gate.2, fun question member => confirmation_refused member⟩
  · have silent : gateAsks request result = false := by
      rw [gateAsks, Bool.and_eq_false_iff]
      by_contra both
      simp_all
    rw [silent, if_neg gate]
    exact asks

/-- The plan in the state is what the planner has given. -/
def FromPlanner (solve : SolveOutcome) (state : Option AIPlanResult × Orchestrator) : Prop :=
  ∀ result, state.1 = some result →
    ∃ execution, solve.planner = some execution ∧ execution.output = result

theorem ensures_any {ε α : Type} (x : Except ε α) :
    Ensures (fun _ => True) (fun _ => True) x := by
  cases x <;> trivial

theorem executePlanStep_planner {state : Option AIPlanResult × Orchestrator}
    (kept : FromPlanner solve state) (step : StepId) : Ensures (fun _ => True) (FromPlanner solve)
      (Orchestrator.executePlanStep graph solve state step) := by
  cases step with
  | search => exact Ensures.bind (ensures_any _) fun _ _ => kept
  | weather => exact Ensures.bind (ensures_any _) fun _ _ => kept
  | safetyCheck => exact Ensures.bind (ensures_any _) fun _ _ => kept
  | planner =>
      have planned : Ensures (fun _ => True) (fun planned : AIPlanResult × Orchestrator =>
          ∃ execution, solve.planner = some execution ∧ execution.output = planned.1)
          (state.2.runPlanner solve) := by
        apply Ensures.bind (ensures_any _)
        intro o _
        cases given : solve.planner with
        | none => trivial
        | some execution => exact ⟨execution, rfl, rfl⟩
      apply Ensures.bind planned
      rintro ⟨result, o⟩ given _ same
      cases same
      exact given

theorem executeRounds_planner (fuel : Nat) (pending completed : List StepId)
    {state : Option AIPlanResult × Orchestrator} (kept : FromPlanner solve state) :
    Ensures (fun _ => True) (FromPlanner solve)
      (Orchestrator.executeRounds graph solve fuel pending completed state) := by
  induction fuel generalizing pending completed state with
  | zero => trivial
  | succ fuel ih =>
      rw [Orchestrator.executeRounds]
      split
      · exact kept
      · dsimp only
        split
        · trivial
        · apply Ensures.bind (Ensures.foldlM _ (fun _ step kept =>
            executePlanStep_planner kept step) kept)
          intro _ kept
          exact ih _ _ kept

/-- A solve gives what its planner has given. -/
theorem executePlanningStages_planner
    (ran : o.executePlanningStages graph solve = .ok (result, after)) :
    ∃ execution, solve.planner = some execution ∧ execution.output = result := by
  obtain ⟨⟨planned, reached⟩, rounds, ran⟩ := bind_eq_ok.mp ran
  obtain ⟨given, raised, same⟩ := bind_eq_ok.mp ran
  have start : FromPlanner solve (none, o) := by
    intro _ absent
    cases absent
  have kept := (executeRounds_planner _ _ _ start).result rounds
  cases same
  apply kept
  cases planned with
  | none => cases raised
  | some given =>
      cases raised
      rfl

end stages

section run
variable {request : PlanRequest L} {found : Findings} {solve : SolveFindings}
  {intent : ParsedIntent} {overrides : List (String × String)} {settings : Settings}
  {result reviewed : AIPlanResult} {o after : Orchestrator} {graph : List AgentPlanStep}

theorem questions_place {question : ClarificationQuestion}
    (member : question ∈ solve.questions T intent overrides) : PlaceField question.field := by
  rw [SolveFindings.questions] at member
  cases searched : solve.searched T intent overrides with
  | none =>
      rw [searched] at member
      contradiction
  | some questions =>
      rw [searched, Option.getD_some] at member
      obtain ⟨execution, -, asked⟩ := Option.bind_eq_some_iff.mp searched
      exact searchQuestions_field asked member

/-- A solve comes with the questions of its search, of its tools, or with none. -/
theorem solve_asks (ran : o.executePlanningStages graph (solve.outcome T intent overrides) =
      .ok (result, after)) :
    AsksFor (solve.asker T intent overrides) result.questions ∧
      (result.status ≠ .needClarification → result.questions = []) := by
  obtain ⟨planned, given, rfl⟩ := executePlanningStages_planner ran
  obtain ⟨execution, plans, rfl⟩ := Option.map_eq_some_iff.mp given
  have output : (withOutput execution (plannerResult intent.toPlanIntent
      (solve.questions T intent overrides) execution.output)).output =
        plannerResult intent.toPlanIntent (solve.questions T intent overrides)
          execution.output := rfl
  rw [output, SolveFindings.asker, plans, Option.map_some]
  unfold plannerResult
  by_cases asked : solve.questions T intent overrides ≠ []
  · rw [if_pos asked, if_pos asked]
    exact ⟨fun question member => questions_place member, fun planned => absurd rfl planned⟩
  · rw [if_neg asked, if_neg asked]
    cases execution.output with
    | evaluated => exact ⟨rfl, fun _ => rfl⟩
    | unavailable tool =>
        have refused : supportedField tool.field = false := by cases tool <;> decide
        exact ⟨⟨List.cons_ne_nil _ _, List.forall_mem_singleton.mpr refused⟩,
          fun planned => absurd rfl planned⟩

/-- The intake of a run hands on the questions of the intent stage. -/
theorem intake_asks {plan : PlanIntent} {required : List ClarificationQuestion}
    (taken : (found.script T request).intake settings = .ok ((plan, required), o)) :
    AsksFor .intent required := by
  obtain ⟨started, -, taken⟩ := bind_eq_ok.mp taken
  obtain ⟨consumed, -, taken⟩ := bind_eq_ok.mp taken
  obtain ⟨execution, raised, same⟩ := bind_eq_ok.mp taken
  cases understood : (found.script T request).understand with
  | none =>
      rw [understood] at raised
      cases raised
  | some given =>
      rw [understood] at raised
      cases raised
      obtain ⟨parsed, -, rfl⟩ := Option.map_eq_some_iff.mp understood
      cases same
      exact fun question member => requiredQuestions_field member

/-- A reviewed plan comes with the questions of the critic or of the second solve. -/
theorem reviewed_asks {plan : PlanIntent} (silent : result.questions = [])
    (ran : (found.script T request).reviewed o plan result = .ok (reviewed, after)) :
    ∃ asker, found.reviewedAsker T request o plan result = .ok asker ∧
      AsksFor asker reviewed.questions := by
  obtain ⟨⟨review, later⟩, first, ran⟩ := bind_eq_ok.mp ran
  cases review with
  | none =>
      refine ⟨_, bind_eq_ok.mpr ⟨_, first, rfl⟩, ?_⟩
      dsimp only at ran ⊢
      cases ran
      split
      · have refused : supportedField "critic_review" = false := by decide
        exact ⟨List.cons_ne_nil _ _, List.forall_mem_singleton.mpr refused⟩
      · exact silent
  | some review =>
      dsimp only at ran
      by_cases retry : review.verdict = .retryWithSoftAdjustments ∧ later.retryAllowed
      · rw [if_pos retry] at ran
        obtain ⟨⟨second, solved⟩, again, ran⟩ := bind_eq_ok.mp ran
        obtain ⟨adjusted, -, stages⟩ := bind_eq_ok.mp again
        obtain ⟨⟨secondReview, last⟩, judgement, ran⟩ := bind_eq_ok.mp ran
        obtain ⟨asks, -⟩ := solve_asks stages
        cases secondReview with
        | none =>
            cases ran
            refine ⟨found.secondAsker T request, bind_eq_ok.mpr ⟨_, first, ?_⟩, ?_⟩
            · dsimp only
              rw [if_pos retry]
              exact bind_eq_ok.mpr ⟨_, again, bind_eq_ok.mpr ⟨_, judgement, rfl⟩⟩
            · have kept : AsksFor (judged after.settings.mode review (found.secondAsker T request))
                  (second.underReview after.settings.mode review).questions :=
                underReview_asks asks
              rwa [judged_retry retry.1] at kept
        | some report =>
            cases ran
            refine ⟨judged after.settings.mode report (found.secondAsker T request),
              bind_eq_ok.mpr ⟨_, first, ?_⟩, ?_⟩
            · dsimp only
              rw [if_pos retry]
              exact bind_eq_ok.mpr ⟨_, again, bind_eq_ok.mpr ⟨_, judgement, rfl⟩⟩
            · exact underReview_asks asks
      · rw [if_neg retry] at ran
        cases ran
        have asks : AsksFor .nobody result.questions := silent
        refine ⟨_, bind_eq_ok.mpr ⟨_, first, ?_⟩, underReview_asks asks⟩
        dsimp only
        rw [if_neg retry]
        rfl

/-- The questions of every run are those of its asker. -/
theorem run_asks (ran : (found.script T request).plan settings request.planning =
      .ok (result, after)) :
    ∃ asker, found.asker T request settings = .ok asker ∧ AsksFor asker result.questions := by
  obtain ⟨⟨⟨plan, required⟩, o⟩, taken, ran⟩ := bind_eq_ok.mp ran
  dsimp only at ran
  by_cases asked : required ≠ []
  · rw [if_pos asked] at ran
    obtain ⟨_, -, same⟩ := bind_eq_ok.mp ran
    cases same
    refine ⟨.intent, bind_eq_ok.mpr ⟨_, taken, ?_⟩, intake_asks taken⟩
    dsimp only
    rw [if_pos asked]
    rfl
  · rw [if_neg asked] at ran
    obtain ⟨⟨first, solved⟩, solves, ran⟩ := bind_eq_ok.mp ran
    obtain ⟨planned, -, stages⟩ := bind_eq_ok.mp solves
    obtain ⟨asks, silent⟩ := solve_asks stages
    dsimp only at ran
    by_cases unclear : first.status = .needClarification
    · rw [if_pos unclear] at ran
      obtain ⟨_, -, same⟩ := bind_eq_ok.mp ran
      cases same
      refine ⟨_, bind_eq_ok.mpr ⟨_, taken, ?_⟩, asks⟩
      dsimp only
      rw [if_neg asked]
      apply bind_eq_ok.mpr ⟨_, solves, _⟩
      dsimp only
      rw [if_pos unclear]
      rfl
    · rw [if_neg unclear] at ran
      obtain ⟨⟨final, last⟩, reviews, ran⟩ := bind_eq_ok.mp ran
      obtain ⟨_, -, same⟩ := bind_eq_ok.mp ran
      cases same
      obtain ⟨asker, told, asks⟩ := reviewed_asks (silent unclear) reviews
      refine ⟨_, bind_eq_ok.mpr ⟨_, taken, ?_⟩, confirm_asks asks⟩
      dsimp only
      rw [if_neg asked]
      apply bind_eq_ok.mpr ⟨_, solves, _⟩
      dsimp only
      rw [if_neg unclear]
      exact bind_eq_ok.mpr ⟨_, reviews, bind_eq_ok.mpr ⟨_, told, rfl⟩⟩

end run

/-- Every question of a result can be answered, exactly where the intent stage or the search has
asked, or nobody has. -/
theorem questions_answerable_iff (T : Texts) (L : Leaves) (stored request : PlanRequest L)
    (found : Findings) (settings : Settings) (result : AIPlanResult) (o : Orchestrator)
    (ran : (found.script T request).plan settings request.planning = .ok (result, o)) :
    ∃ asker, found.asker T request settings = .ok asker ∧
      ((∀ question ∈ result.questions, Answerable T stored question.field) ↔
        asker.asksRequest = true) := by
  obtain ⟨asker, told, asks⟩ := run_asks ran
  exact ⟨asker, told, asks.answerable_iff⟩

def museumText : {text : String // 2 ≤ text.length ∧ text.length ≤ 4000} := ⟨"去博物馆", by decide⟩

/-- A request that leaves from somewhere. -/
def locatedRequest : PlanRequest .plain
  | .origin => some (somewhere .plain)
  | field => plainRequest museumText field

/-- An agent that has found something at no cost. -/
def finds {α : Type} (output : α) : Outcome α := some { output := output }

theorem one_group : [[({ id := "A", name := "博物馆" } : Planning.PoiCandidate)]].length ≤
    maxPlanningTasks := by decide

/-- One museum, nine kilometres away on foot. -/
def museumSolve : SolveFindings where
  search := finds { candidateGroups := [[{ id := "A", name := "博物馆" }]], sized := one_group }
  safety := finds ()
  planner := finds (.evaluated true { status := .success, totalDistanceMeters := some 9000 } [])

/-- A trip that leaves at once. -/
def museumIntent (mode : TransportMode) : ParsedIntent where
  transportMode := mode
  departureTime := some (.naive 0)
  tasks := [{ description := "去博物馆" }]

def museumFindings (mode : TransportMode) : Findings where
  start := finds ()
  understand := finds (museumIntent mode)
  planNext := finds ()
  firstSolve := museumSolve
  firstReview := none
  scheduled := none
  secondSolve := museumSolve
  secondReview := none
  finalize := finds ()

/-- The fields that a run asks for. -/
def askedFields (settings : Settings) (mode : TransportMode) (request : PlanRequest .plain) :
    Option (List String) :=
  let script := (museumFindings mode).script plainTexts request
  (script.plan settings request.planning).toOption.map fun outcome =>
    outcome.1.questions.map ClarificationQuestion.field

theorem askedFields_eq_some {settings : Settings} {mode : TransportMode}
    {request : PlanRequest .plain} {fields : List String}
    (asked : askedFields settings mode request = some fields) : ∃ result o,
      ((museumFindings mode).script plainTexts request).plan settings request.planning =
        .ok (result, o) ∧ result.questions.map ClarificationQuestion.field = fields := by
  obtain ⟨⟨result, o⟩, ran, rfl⟩ := Option.map_eq_some_iff.mp asked
  refine ⟨result, o, ?_, rfl⟩
  cases outcome : ((museumFindings mode).script plainTexts request).plan settings
      request.planning with
  | ok =>
      rw [outcome] at ran
      exact congrArg Except.ok (Option.some.inj ran)
  | error =>
      rw [outcome] at ran
      cases ran

theorem questions_answerable_iff_origin : ∃ result o,
    ((museumFindings .transit).script plainTexts (plainRequest museumText)).plan { mode := .off }
      (plainRequest museumText).planning = .ok (result, o) ∧
    result.questions.map ClarificationQuestion.field = ["origin"] ∧
    ∀ question ∈ result.questions,
      Answerable plainTexts (plainRequest museumText) question.field := by
  have asked : askedFields { mode := .off } .transit (plainRequest museumText) =
      some ["origin"] := by decide +kernel
  obtain ⟨result, o, ran, fields⟩ := askedFields_eq_some asked
  obtain ⟨asker, told, answers⟩ := questions_answerable_iff plainTexts .plain
    (plainRequest museumText) (plainRequest museumText) (museumFindings .transit) { mode := .off }
    result o ran
  have intent : (museumFindings .transit).asker plainTexts (plainRequest museumText)
      { mode := .off } = .ok .intent := by decide +kernel
  obtain rfl : asker = .intent := Except.ok.inj (told.symm.trans intent)
  exact ⟨result, o, ran, fields, answers.mpr rfl⟩

/-- The confirmation gate asks for a field that a continuation refuses, although the answer could be
applied. -/
theorem confirmation_unanswerable : ∃ result o,
    ((museumFindings .walking).script plainTexts locatedRequest).plan { mode := .off }
      locatedRequest.planning = .ok (result, o) ∧
    result.questions.map ClarificationQuestion.field = ["human_confirmation.walking_distance"] ∧
    (¬ ∀ question ∈ result.questions, Answerable plainTexts locatedRequest question.field) ∧
    (applyClarificationAnswer plainTexts ((aiPlanRequest .plain).entries locatedRequest)
      "human_confirmation.walking_distance" (.bool true)).isSome = true := by
  have asked : askedFields { mode := .off } .walking locatedRequest =
      some ["human_confirmation.walking_distance"] := by decide +kernel
  obtain ⟨result, o, ran, fields⟩ := askedFields_eq_some asked
  have inside : "human_confirmation.walking_distance" ∈
      result.questions.map ClarificationQuestion.field := by
    rw [fields]
    exact List.mem_singleton_self _
  obtain ⟨question, member, same⟩ := List.mem_map.mp inside
  have refused : supportedField "human_confirmation.walking_distance" = false := by decide
  refine ⟨result, o, ran, fields, fun all => ?_, by decide +kernel⟩
  exact unanswerable (same ▸ refused) (all question member)

end MapGo.Conversation
