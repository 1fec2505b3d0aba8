import MapGo.Conversation.Constraints
import MapGo.Planning.Service

/-! The questions that the stages of a planning run ask: gaps in the intent, choices among found
places, and tools that are out of order. -/
namespace MapGo.Conversation

open MapGo.Planning (AIPlanResult ClarificationQuestion Plan PlanIntent PoiCandidate)
open MapGo.Route (TransportMode)

structure ParsedTask where
  description : String
  appointmentTime : Option Planning.Stamp := none

/-- The intent behind the answers of the request, with what questions are asked about. -/
structure ParsedIntent extends PlanIntent where
  origin : Option String := none
  departureTime : Option Planning.Stamp := none
  minimizeCost : Bool := false
  mustPassAreas : List String := []
  avoidAreas : List String := []
  tasks : List ParsedTask := []

namespace PlanRequest
variable {L : Leaves} (request : PlanRequest L)

/-- `request.origin` -/
def origin : Option (coordinate L).Model := request .origin

/-- `request.departure_time` -/
def departureTime : Option L.Time := request .departureTime

end PlanRequest

/-- `SOFT_PREFERENCE_HINTS` -/
def softPreferenceHints : List (String × String × String) :=
  [("别太累", "constraints.hard.max_walking_meters", "你希望把步行上限控制在多少米？"),
    ("离得近", "preferences.minimize_distance", "是否优先选择路程更短的方案？"),
    ("少走路", "preferences.minimize_walking", "是否优先减少步行？"),
    ("省钱", "preferences.minimize_cost", "是否优先控制费用？")]

/-- One question, if there is reason to ask it. -/
def asked (reason : Prop) [Decidable reason] (question : ClarificationQuestion) :
    List ClarificationQuestion :=
  if reason then [question] else []

variable {L : Leaves} (request : PlanRequest L) (intent : ParsedIntent)

def partyQuestions (text : String) : List ClarificationQuestion :=
  if Text.containsAny text ["老人", "带娃", "儿童", "轮椅", "无障碍"] then
    [asked (intent.hard.elderly = 0 ∧ Text.contains text "老人") {
        field := "constraints.hard.party.elderly"
        reason := "检测到同行老人语义"
        question := "同行老人有几位？这将影响步行和节奏安排。"
        required := false },
      asked (intent.hard.children = 0 ∧ Text.containsAny text ["带娃", "儿童", "小孩"]) {
        field := "constraints.hard.party.children"
        reason := "检测到同行儿童语义"
        question := "同行儿童有几位？"
        required := false },
      asked (intent.hard.wheelchairAccessible = false ∧
          (Text.contains text "轮椅" ∨ Text.contains text "无障碍")) {
        field := "constraints.hard.wheelchair_accessible"
        reason := "检测到无障碍需求"
        question := "是否要求全程轮椅可达？" }].flatten
  else []

def areaQuestions (text : String) : List ClarificationQuestion :=
  if Text.containsAny text ["必经", "路过", "避开", "不要经过"] then
    [asked (intent.mustPassAreas = [] ∧ (Text.contains text "必经" ∨ Text.contains text "路过")) {
        field := "constraints.hard.must_pass_areas"
        reason := "检测到必经区域语义"
        question := "请写出必须经过的区域名称（可多个）。"
        required := false },
      asked (intent.avoidAreas = [] ∧
          (Text.contains text "避开" ∨ Text.contains text "不要经过")) {
        field := "constraints.hard.avoid_areas"
        reason := "检测到避开区域语义"
        question := "请写出希望避开的区域名称（可多个）。"
        required := false }].flatten
  else []

/-- A limit that the intent needs and does not have. -/
def limitQuestions : List ClarificationQuestion :=
  [asked (intent.hard.maxWalkingMeters = none ∧
        (intent.transportMode = .walking ∨ intent.preferences.minimizeWalking)) {
      field := "constraints.hard.max_walking_meters"
      reason := "步行上限缺失，无法验证少走路/步行硬约束"
      question := "最长可以接受步行多少米？"
      required := intent.preferences.minimizeWalking },
    asked (intent.hard.maxTotalCostYuan = none ∧ intent.minimizeCost) {
      field := "constraints.hard.max_total_cost_yuan"
      reason := "省钱偏好缺少预算上限"
      question := "本次行程总预算上限是多少元？"
      required := false }].flatten

/-- The questions of `select_clarification_questions` in the order in which they come up. -/
def gapQuestions (text : String) : List ClarificationQuestion :=
  [asked ((intent.origin = none ∨ intent.origin = some "") ∧
        request.origin.isNone) {
      field := "origin"
      reason := "缺少起点"
      question := "请提供出发地点或当前位置坐标。" },
    asked (intent.departureTime = none ∧ request.departureTime.isNone) {
      field := "departure_time"
      reason := "缺少出发时间"
      question := "你计划什么时候出发？"
      required := false },
    partyQuestions intent text,
    asked (Text.containsAny text ["忌口", "过敏", "不吃", "素食", "清真"]) {
      field := "preferences.dietary_restrictions"
      reason := "检测到餐饮忌口"
      question := "请说明餐饮忌口或饮食限制（可多选描述）。"
      required := false },
    asked (Text.containsAny text ["预约", "订票", "门票"] ∧
        ¬ intent.tasks.any fun task => task.appointmentTime.isSome) {
      field := "tasks.0.appointment_time"
      reason := "检测到预约需求但缺少具体时间"
      question := "需要预约的地点具体是几点？"
      required := false },
    areaQuestions intent text,
    softPreferenceHints.flatMap fun (hint, field, question) => asked (Text.contains text hint) {
      field := field
      reason := "检测到模糊偏好「" ++ hint ++ "」"
      question := question
      required := false },
    limitQuestions intent].flatten

/-- The order of the questions: required ones first, then by their field. -/
def askedBefore (a b : ClarificationQuestion) : Bool :=
  if a.required = b.required then decide (a.field ≤ b.field) else a.required

/-- The first question of each field. -/
def firstOfField : List ClarificationQuestion → List ClarificationQuestion
  | [] => []
  | question :: rest =>
      question :: (firstOfField rest).filter fun later => later.field ≠ question.field

/-- `select_clarification_questions` -/
def selectClarificationQuestions (text : String) : List ClarificationQuestion :=
  (firstOfField ((gapQuestions request intent text).mergeSort askedBefore)).take 3

/-- The questions of `IntentAgent.run`. -/
def requiredQuestions : List ClarificationQuestion :=
  let questions := selectClarificationQuestions request intent request.text
  let questions := if request.origin.isNone ∧
      ¬ questions.any (fun question => question.field = "origin") then
    ({ field := "origin"
       reason := "路线矩阵和候选地点召回必须有可信起点"
       question := "请提供出发位置，或允许使用当前定位。" } : ClarificationQuestion) :: questions
  else questions
  (questions.filter ClarificationQuestion.required).take 3

/-- `MAX_PLANNING_TASKS` -/
def maxPlanningTasks : Nat := 24

/-- The places that were found for each task, and the keywords that they were searched by. -/
structure SearchFindings where
  candidateGroups : List (List PoiCandidate)
  keywords : List String := []
  sized : candidateGroups.length ≤ maxPlanningTasks

def choiceField (index : Nat) : String := "tasks." ++ toString index ++ ".selected_poi_id"

def locationField (index : Nat) : String := "tasks." ++ toString index ++ ".location"

/-- One override of a place: the chosen one alone, or a question for another choice. `none` is a
`ValueError`. -/
def applyChoice (state : List (List PoiCandidate) × List ClarificationQuestion)
    (override : String × String) :
    Option (List (List PoiCandidate) × List ClarificationQuestion) := do
  let index ← Text.toInt override.1
  if 0 ≤ index ∧ index < state.1.length then
    let group := state.1.getD index.toNat []
    match group.find? fun item => item.id = override.2 with
    | none => some (state.1, state.2 ++ [{
        field := choiceField index.toNat
        reason := "The selected POI is no longer returned by the map provider"
        question := "该地点已无法验证，请重新选择一个候选地点。"
        candidates := group.take 5 }])
    | some selected => some (state.1.set index.toNat [selected], state.2)
  else none

def missingQuestions (groups : List (List PoiCandidate)) (keywords : List String) :
    List ClarificationQuestion :=
  (groups.zipIdx.filter fun group => group.1.isEmpty).map fun (_, index) => {
    field := locationField index
    reason := "地图 Provider 未返回可验证的真实候选地点"
    question := "没有找到“" ++ keywords.getD index "" ++ "”，可以提供更具体的名称或区域吗？" }

/-- The first places of the group all have one name. -/
def sameNames (T : Texts) (group : List PoiCandidate) : Bool :=
  2 ≤ group.length &&
    ((group.take 3).map fun item => T.casefold (Text.strip item.name)).dedup.length == 1

def sameNameQuestions (T : Texts) (groups : List (List PoiCandidate))
    (overrides : List (String × String)) : List ClarificationQuestion :=
  (groups.zipIdx.filter fun (group, index) =>
    sameNames T group && (overrides.lookup (toString index)).isNone).map fun (group, index) => {
      field := choiceField index
      reason := "同名地点存在多个候选"
      question := "任务“" ++ (intent.tasks.getD index { description := "" }).description ++
        "”匹配到多个地点，请选择一个。"
      candidates := group.take 5 }

/-- `_apply_user_choices_and_build_questions` -/
def searchQuestions (T : Texts) (overrides : List (String × String)) (found : SearchFindings) :
    Option (List ClarificationQuestion) := do
  let (groups, selectedMissing) ← overrides.foldlM applyChoice (found.candidateGroups, [])
  let missing := missingQuestions groups found.keywords
  if selectedMissing ≠ [] then some selectedMissing
  else if missing ≠ [] then some missing
  else some ((sameNameQuestions intent T groups overrides).take 2)

inductive RouteTool where
  | routeMatrix | routeOptimizer
  deriving DecidableEq, Repr

def RouteTool.field : RouteTool → String
  | routeMatrix => "route_matrix"
  | routeOptimizer => "route_optimizer"

/-- What the deterministic tools of the planner give. -/
inductive Routing where
  | unavailable (tool : RouteTool) (errorCode : String)
  | evaluated (feasible : Bool) (plan : Plan) (warnings : List String)

/-- `_tool_unavailable_result` -/
def toolUnavailableResult (intent : PlanIntent) (tool : RouteTool) (errorCode : String) :
    AIPlanResult where
  plan := { status := .needClarification, intent }
  planningState := .needClarification
  questions := [{
    field := tool.field
    reason := errorCode
    question := "路线数据暂不可用，是否稍后重试规划？" }]
  warnings := ["确定性规划工具未完成：" ++ errorCode]

/-- The result of `PlannerAgent.run`. -/
def plannerResult (intent : PlanIntent) (questions : List ClarificationQuestion)
    (routing : Routing) : AIPlanResult :=
  if questions ≠ [] then {
    plan := { status := .needClarification, intent }
    planningState := .needClarification
    questions := questions }
  else match routing with
    | .unavailable tool errorCode => toolUnavailableResult intent tool errorCode
    | .evaluated feasible plan warnings => {
        plan := { plan with status := if feasible then .success else .infeasible, intent }
        planningState := if feasible then .planReady else .infeasible
        warnings := warnings }

section fields
variable {T : Texts} {question other : ClarificationQuestion} {request : PlanRequest L}
  {intent : ParsedIntent} {text : String} {overrides : List (String × String)}
  {found : SearchFindings} {questions : List ClarificationQuestion}

theorem mem_asked {reason : Prop} [Decidable reason] :
    question ∈ asked reason other ↔ reason ∧ question = other := by
  unfold asked
  split
  next holds => rw [List.mem_singleton, and_iff_right holds]
  next fails => exact iff_of_false (List.not_mem_nil) fun both => fails both.1

theorem mem_of_firstOfField (member : question ∈ firstOfField questions) :
    question ∈ questions := by
  induction questions with
  | nil => exact member
  | cons first rest ih =>
      rcases List.mem_cons.mp member with rfl | later
      · exact List.mem_cons_self
      · exact List.mem_cons_of_mem _ (ih (List.mem_of_mem_filter later))

/-- The fields of the questions that an intent must have answered. -/
def requiredFields : List String :=
  ["origin", "constraints.hard.wheelchair_accessible", "constraints.hard.max_walking_meters"]

theorem partyQuestions_field (member : question ∈ partyQuestions intent text)
    (required : question.required = true) : question.field ∈ requiredFields := by
  unfold partyQuestions at member
  split at member
  · simp only [List.flatten_cons, List.flatten_nil, List.mem_append, mem_asked, List.not_mem_nil,
      or_false] at member
    rcases member with ⟨-, rfl⟩ | ⟨-, rfl⟩ | ⟨-, rfl⟩
    · contradiction
    · contradiction
    · decide
  · contradiction

theorem areaQuestions_optional (member : question ∈ areaQuestions intent text) :
    question.required = false := by
  unfold areaQuestions at member
  split at member
  · simp only [List.flatten_cons, List.flatten_nil, List.mem_append, mem_asked, List.not_mem_nil,
      or_false] at member
    rcases member with ⟨-, rfl⟩ | ⟨-, rfl⟩ <;> rfl
  · contradiction

theorem limitQuestions_field (member : question ∈ limitQuestions intent)
    (required : question.required = true) : question.field ∈ requiredFields := by
  simp only [limitQuestions, List.flatten_cons, List.flatten_nil, List.mem_append, mem_asked,
    List.not_mem_nil, or_false] at member
  rcases member with ⟨-, rfl⟩ | ⟨-, rfl⟩
  · have listed : "constraints.hard.max_walking_meters" ∈ requiredFields := by decide
    exact listed
  · contradiction

theorem gapQuestions_field (member : question ∈ gapQuestions request intent text)
    (required : question.required = true) : question.field ∈ requiredFields := by
  simp only [gapQuestions, List.flatten_cons, List.flatten_nil, List.mem_append, mem_asked,
    List.not_mem_nil, or_false, List.mem_flatMap] at member
  rcases member with ⟨-, rfl⟩ | ⟨-, rfl⟩ | party | ⟨-, rfl⟩ | ⟨-, rfl⟩ | area |
    ⟨hint, -, -, rfl⟩ | limit
  · decide
  · contradiction
  · exact partyQuestions_field party required
  · contradiction
  · contradiction
  · exact absurd ((areaQuestions_optional area).symm.trans required) Bool.false_ne_true
  · contradiction
  · exact limitQuestions_field limit required

/-- The intent stage asks for an origin, for accessibility or for a walking limit. -/
theorem requiredQuestions_field (member : question ∈ requiredQuestions request intent) :
    question.field ∈ requiredFields := by
  obtain ⟨selected, required⟩ := List.mem_filter.mp (List.mem_of_mem_take member)
  have chosen (among : question ∈ selectClarificationQuestions request intent request.text) :
      question.field ∈ requiredFields :=
    gapQuestions_field (List.mem_mergeSort.mp (mem_of_firstOfField (List.mem_of_mem_take among)))
      required
  split at selected
  · rcases List.mem_cons.mp selected with rfl | among
    · decide
    · exact chosen among
  · exact chosen selected

/-- A field that asks for the place of a task. -/
def PlaceField (field : String) : Prop :=
  ∃ index < maxPlanningTasks, field = choiceField index ∨ field = locationField index

/-- One group for each task, and questions about places alone. -/
structure Choosing (state : List (List PoiCandidate) × List ClarificationQuestion) : Prop where
  sized : state.1.length ≤ maxPlanningTasks
  fields : ∀ question ∈ state.2, PlaceField question.field

theorem Choosing.applyChoice
    {state later : List (List PoiCandidate) × List ClarificationQuestion}
    {override : String × String} (choosing : Choosing state)
    (applied : applyChoice state override = some later) : Choosing later := by
  obtain ⟨index, read, applied⟩ := Option.bind_eq_some_iff.mp applied
  split at applied
  next within =>
    have inside : index.toNat < state.1.length := by omega
    dsimp only at applied
    split at applied
    · obtain rfl := Option.some.inj applied
      constructor
      · exact choosing.sized
      · intro question member
        rcases List.mem_append.mp member with old | new
        · exact choosing.fields question old
        · obtain rfl := List.mem_singleton.mp new
          exact ⟨index.toNat, inside.trans_le choosing.sized, .inl rfl⟩
    · obtain rfl := Option.some.inj applied
      constructor
      · rw [List.length_set]
        exact choosing.sized
      · exact choosing.fields
  next => contradiction

theorem Choosing.choices {state later : List (List PoiCandidate) × List ClarificationQuestion}
    (choosing : Choosing state)
    (applied : overrides.foldlM MapGo.Conversation.applyChoice state = some later) :
    Choosing later := by
  induction overrides generalizing state with
  | nil =>
      obtain rfl := Option.some.inj applied
      exact choosing
  | cons override rest ih =>
      rw [List.foldlM_cons] at applied
      obtain ⟨next, first, remaining⟩ := Option.bind_eq_some_iff.mp applied
      exact ih (choosing.applyChoice first) remaining

theorem mem_zipIdx_lt {α : Type} {items : List α} {item : α × Nat}
    (member : item ∈ items.zipIdx) : item.2 < items.length := by
  obtain ⟨inside, -⟩ := List.mem_zipIdx' member
  exact inside

/-- The search stage asks for places of tasks. -/
theorem searchQuestions_field (searched : searchQuestions intent T overrides found =
    some questions) (member : question ∈ questions) : PlaceField question.field := by
  obtain ⟨⟨groups, selectedMissing⟩, applied, rest⟩ := Option.bind_eq_some_iff.mp searched
  have start : Choosing (found.candidateGroups, []) :=
    ⟨found.sized, List.forall_mem_nil _⟩
  have chosen := start.choices applied
  dsimp only at rest
  split at rest
  · obtain rfl := Option.some.inj rest
    exact chosen.fields question member
  · split at rest
    · obtain rfl := Option.some.inj rest
      obtain ⟨⟨group, index⟩, inside, rfl⟩ := List.mem_map.mp member
      have placed := mem_zipIdx_lt (List.mem_of_mem_filter inside)
      exact ⟨index, placed.trans_le chosen.sized, .inr rfl⟩
    · obtain rfl := Option.some.inj rest
      obtain ⟨⟨group, index⟩, inside, rfl⟩ := List.mem_map.mp (List.mem_of_mem_take member)
      have placed := mem_zipIdx_lt (List.mem_of_mem_filter inside)
      exact ⟨index, placed.trans_le chosen.sized, .inl rfl⟩

end fields
end MapGo.Conversation
