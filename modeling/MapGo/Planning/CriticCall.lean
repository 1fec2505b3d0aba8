import MapGo.Loaded
import MapGo.Regex
import MapGo.Planning.Critic

/-! The call to the model that reviews a plan: the bounded context that is sent, the reply as
Python reads it with the exceptions on the way, and the choice between the model and the rules.
Some exceptions are caught and lead to the rules, the others leave the critic. -/
namespace MapGo.Planning

open Regex

/-! ### The context -/

/-- A letter of a pattern that ignores case. -/
def sameLetter (letter c : Char) : Bool :=
  c == letter || c == letter.toUpper ||
    (letter == 'i' && (c.toNat == 0x130 || c.toNat == 0x131)) ||
    (letter == 'k' && c.toNat == 0x212A) || (letter == 's' && c.toNat == 0x17F)

def anyCase (text : String) : Regex := concat (text.toList.map fun letter => .char (sameLetter letter))

/-- `_INJECTION_PATTERN` -/
def injectionPattern : Regex :=
  choice (concat [anyCase "ignore", plus space, opt (.seq (anyCase "all") (plus space)),
      anyCase "previous"])
    [concat [anyCase "system", many space, anyCase "prompt"],
      concat [anyCase "developer", many space, anyCase "message"],
      concat [anyCase "call", plus space, opt (.seq (anyCase "a") (plus space)), anyCase "tool"],
      concat [anyCase "execute", plus space, opt (.seq (anyCase "this") (plus space)),
        anyCase "command"],
      concat [word "忽略", upTo dot 12, words "指令" ["提示"]],
      word "系统提示",
      concat [word "调用", upTo dot 8, word "工具"],
      concat [word "执行", upTo dot 8, word "命令"]]

def suspicious (text : String) : Bool := (injectionPattern.search text.toList).isSome

def scrubString (text : String) : String :=
  if suspicious text then "[UNTRUSTED_INSTRUCTION_LIKE_TEXT_REDACTED]" else text

/-- `CriticContext`, its parts as they are dumped. -/
structure CriticContext where
  originalRequirement : Loaded
  planArtifact : List (String × Loaded)
  constraintEvidence : Loaded
  toolExecutionSummary : Loaded
  currentState : Loaded
  conversationHistoryIncluded : Bool := false
  trustedSources : List String := ["shared_state", "validated_artifact", "tool_registry"]
  untrustedDataFields : List String := []

/-- `context.model_dump(mode="json")` with a value for `suspicious_text_redacted`. -/
def CriticContext.modelDump (context : CriticContext) (redacted : Bool) : Loaded :=
  .dict [("original_requirement", context.originalRequirement),
    ("plan_artifact", .dict context.planArtifact),
    ("constraint_evidence", context.constraintEvidence),
    ("tool_execution_summary", context.toolExecutionSummary),
    ("current_state", context.currentState),
    ("security", .dict [
      ("conversation_history_included", .bool context.conversationHistoryIncluded),
      ("trusted_sources", .list (context.trustedSources.map .str)),
      ("untrusted_data_fields", .list (context.untrustedDataFields.map .str)),
      ("suspicious_text_redacted", .bool redacted)])]

/-- What the model is shown of a context. -/
def CriticContext.encoded (floatRepr : ℚ → String) (context : CriticContext) : List Char :=
  let redacted := (context.modelDump false).anyString suspicious
  ((context.modelDump redacted).mapStrings scrubString).dumps floatRepr

/-- `payload["plan_artifact"].pop("candidate_reviews", None)` -/
def CriticContext.withoutReviews (context : CriticContext) : CriticContext :=
  { context with
    planArtifact := context.planArtifact.filter fun entry => entry.1 ≠ "candidate_reviews" }

/-- The exceptions on the way, by the class that the handler looks at. -/
inductive Raised where
  | httpError
  | keyError
  | valueError
  | indexError
  | typeError
  | attributeError
  | overflowError
  | recursionError
  | agentProtocolError
  deriving DecidableEq, Repr

/-- `critic_model_payload` -/
def criticModelPayload (floatRepr : ℚ → String) (context : CriticContext) :
    Except Raised (List Char) :=
  let encoded := context.encoded floatRepr
  if encoded.length ≤ 16000 then .ok encoded
  else
    let encoded := context.withoutReviews.encoded floatRepr
    if encoded.length ≤ 16000 then .ok encoded else .error .agentProtocolError

/-! ### The reply -/

/-- What comes of posting the request and reading its reply. A reply that is no JSON, no UTF-8 or
has an integer of too many digits is undecodable, and one nested too deeply exhausts the stack. -/
inductive Reply where
  | httpError
  | undecodable
  | tooDeep
  | loaded (data : Loaded)

def Reply.json : Reply → Except Raised Loaded
  | .httpError => .error .httpError
  | .undecodable => .error .valueError
  | .tooDeep => .error .recursionError
  | .loaded data => .ok data

/-- `value[key]` -/
def fieldOf (key : String) : Loaded → Except Raised Loaded
  | .dict entries => (entries.lookup key).elim (.error .keyError) .ok
  | _ => .error .typeError

/-- `value[0]` -/
def firstOf : Loaded → Except Raised Loaded
  | .list items => items.head?.elim (.error .indexError) .ok
  | .str text => text.toList.head?.elim (.error .indexError) fun c => .ok (.str (String.ofList [c]))
  | .dict _ => .error .keyError
  | _ => .error .typeError

/-- `value.get(key)` -/
def valueOf (key : String) : Loaded → Except Raised Loaded
  | .dict entries => .ok ((entries.lookup key).getD .null)
  | _ => .error .attributeError

/-- `int(value)` -/
def intOf : Loaded → Except Raised Int
  | .bool value => .ok value.toNat
  | .int value => .ok value
  | .float value => .ok (if 0 ≤ value then ⌊value⌋ else ⌈value⌉)
  | .infinity _ => .error .overflowError
  | .nan => .error .valueError
  | .str text => (Text.toInt text).elim (.error .valueError) .ok
  | .null | .list _ | .dict _ => .error .typeError

/-- `int(value or 0)` -/
def countOf (value : Loaded) : Except Raised Int := if value.truthy then intOf value else .ok 0

/-- The least integer that rounds beyond the largest float, `(2 ^ 53 - 1) * 2 ^ 971`. -/
def floatLimit : Nat := (2 ^ 54 - 1) * 2 ^ 970

/-- Multiplying a float converts the integer. -/
def priced (tokens : Int) : Except Raised Unit :=
  if tokens.natAbs < floatLimit then .ok () else .error .overflowError

/-- `data["choices"][0]["message"]["content"]` -/
def readContent (data : Loaded) : Except Raised Loaded := do
  let choice ← firstOf (← fieldOf "choices" data)
  fieldOf "content" (← fieldOf "message" choice)

/-- `ReviewReport.model_validate_json(content)`, which rejects whatever is not text. -/
def readReport (validateJson : String → Option ReviewReport) : Loaded → Except Raised ReviewReport
  | .str text => (validateJson text).elim (.error .valueError) .ok
  | _ => .error .valueError

/-- The token counts of a usage, and what becomes of their prices. -/
def readCounts (usage : Loaded) : Except Raised (Int × Int) := do
  let inputTokens ← countOf (← valueOf "prompt_tokens" usage)
  let outputTokens ← countOf (← valueOf "completion_tokens" usage)
  priced inputTokens
  priced outputTokens
  .ok (inputTokens, outputTokens)

/-- The counts of `data.get("usage") or {}` -/
def readTokens (data : Loaded) : Except Raised (Int × Int) := do
  let usage ← valueOf "usage" data
  readCounts (if usage.truthy then usage else .dict [])

/-- The `try` block up to the token budget. -/
def readReply (validateJson : String → Option ReviewReport) (reply : Reply) :
    Except Raised (ReviewReport × Int × Int) := do
  let data ← reply.json
  let report ← readReport validateJson (← readContent data)
  let tokens ← readTokens data
  .ok (report, tokens)

/-- The exceptions of the `except` clause. -/
def Raised.caught : Raised → Bool
  | .httpError | .keyError | .valueError => true
  | _ => false

def modelResponse : Except Raised (ReviewReport × Int × Int) → ModelResponse
  | .ok (report, inputTokens, outputTokens) => .answer report inputTokens.toNat outputTokens.toNat
  | .error raised => if raised.caught then .failed else .raised

/-! ### The critics -/

/-- A plan under review, with the context that it comes in when it is typed. -/
structure CriticInput where
  context : Option CriticContext
  plan : Plan

structure CriticModel where
  limits : CriticLimits
  floatRepr : ℚ → String
  validateJson : String → Option ReviewReport

namespace CriticModel
variable (model : CriticModel)

/-- Building the request, outside of the `try` block. A plain plan is cut to the size. -/
def prepare (input : CriticInput) : Except Raised Unit :=
  match input.context with
  | some context => (criticModelPayload model.floatRepr context).map fun _ => ()
  | none => .ok ()

/-- What becomes of the reply: the report of the model with the evaluation, or the rules. -/
def judge (plan : Plan) : Except Raised (ReviewReport × Int × Int) → Except Raised ReviewReport
  | .error raised => if raised.caught then .ok (ruleBasedReview plan) else .error raised
  | .ok (report, inputTokens, outputTokens) =>
      if model.limits.maxCriticInputTokens < inputTokens ∨
        model.limits.maxCriticOutputTokens < outputTokens then .ok (ruleBasedReview plan)
      else match reviewedEvaluation plan with
        | none => .ok report
        | some evaluation => .ok (mergeEvaluation report evaluation)

/-- `OpenAICompatibleCriticAgent.run` -/
def run (input : CriticInput) (reply : Reply) : Except Raised ReviewReport := do
  model.prepare input
  model.judge input.plan (readReply model.validateJson reply)

end CriticModel

/-- What `routing_context_from_plan` reads of a plan besides its reviewed fields. -/
structure RoutedInput extends CriticInput where
  /-- Tasks of the intent, or else the stops. -/
  taskCount : Nat
  /-- Hard constraints that are set. -/
  hardConstraintCount : Nat
  conflicts : Bool

inductive ModelTier where
  | rule | small | strong
  deriving DecidableEq, Repr

structure ModelRouter where
  enabled : Bool := true
  ruleMaxComplexity : Nat := 1
  strongMinComplexity : Nat := 5
  strongMinUncertainty : Nat := 2
  smallModel : String
  strongModel : String

namespace RoutedInput
variable (input : RoutedInput)

def uncertaintyCount : Nat := input.plan.intent.uncertain.length

def highRisk : Bool :=
  input.plan.status ≠ .success || input.conflicts || input.plan.intent.hard.elderly ≠ 0 ||
    input.plan.intent.hard.children ≠ 0 || input.plan.intent.hard.wheelchairUsers ≠ 0

def complexity : Nat :=
  min 20 ((input.taskCount - 1) + min input.hardConstraintCount 5 +
    2 * min input.uncertaintyCount 3 + if input.highRisk then 2 else 0)

/-- The bounds of `ModelRoutingContext`. -/
def Routable : Prop :=
  input.taskCount ≤ 100 ∧ input.hardConstraintCount ≤ 100 ∧ input.uncertaintyCount ≤ 100

instance : Decidable input.Routable := inferInstanceAs (Decidable (_ ∧ _ ∧ _))

end RoutedInput

namespace ModelRouter
variable (router : ModelRouter)

/-- The tier of a review by `ModelRouter.route`. -/
def tier (available : Bool) (input : RoutedInput) : ModelTier :=
  if !router.enabled then if available then .small else .rule
  else if !available then .rule
  else if router.strongMinComplexity ≤ input.complexity ∨
    router.strongMinUncertainty ≤ input.uncertaintyCount ∨ input.highRisk then .strong
  else if input.complexity ≤ router.ruleMaxComplexity then .rule
  else .small

/-- The model of a tier. -/
def modelName : ModelTier → Option String
  | .rule => none
  | .small => some router.smallModel
  | .strong => some router.strongModel

/-- The decision, unless it or the context breaks its schema. -/
def route (available : Bool) (input : RoutedInput) : Except Raised ModelTier :=
  if input.Routable ∧ ((router.modelName (router.tier available input)).all fun name =>
      decide (name.length ≤ 100)) = true then .ok (router.tier available input)
  else .error .valueError

end ModelRouter

/-- `RoutedCriticAgent.run`; the model is available with a key and a client. -/
def routedRun (router : ModelRouter) (model : CriticModel) (available : Bool) (input : RoutedInput)
    (reply : Reply) : Except Raised ReviewReport := do
  let tier ← router.route available input
  if tier = .strong ∧ available then model.run input.toCriticInput reply
  else .ok (ruleBasedReview input.plan)

/-! ### When a critic reports -/

/-- The context has at most 16000 characters, with or without the candidate reviews. -/
def Fits (floatRepr : ℚ → String) (input : CriticInput) : Prop :=
  ∀ context ∈ input.context, (context.encoded floatRepr).length ≤ 16000 ∨
    (context.withoutReviews.encoded floatRepr).length ≤ 16000

/-- `intOf` gives an integer or a caught exception. -/
def Convertible : Loaded → Prop
  | .infinity _ => False
  | .list items => items = []
  | .dict entries => entries = []
  | _ => True

/-- The token counts convert, the second if the first has, and both are in the range of floats. -/
def TokensReadable (usage : List (String × Loaded)) : Prop :=
  let prompt := (usage.lookup "prompt_tokens").getD .null
  let completion := (usage.lookup "completion_tokens").getD .null
  Convertible prompt ∧ ∀ input, countOf prompt = .ok input →
    Convertible completion ∧ ∀ output, countOf completion = .ok output →
      input.natAbs < floatLimit ∧ output.natAbs < floatLimit

/-- A usage counts as false or has readable tokens. -/
def UsageReadable (usage : Loaded) : Prop :=
  usage.truthy = true → ∃ counts, usage = .dict counts ∧ TokensReadable counts

/-- The choices are keyed, or start with a choice whose message, if any, has fields. -/
def ChoicesShaped (choices : Loaded) : Prop :=
  (∃ keyed, choices = .dict keyed) ∨ ∃ choice others, choices = .list (.dict choice :: others) ∧
    ∀ message ∈ choice.lookup "message", ∃ fields, message = .dict fields

/-- The message of the first choice has the content. -/
def Answers (entries : List (String × Loaded)) (content : Loaded) : Prop :=
  ∃ choice others fields, entries.lookup "choices" = some (.list (.dict choice :: others)) ∧
    choice.lookup "message" = some (.dict fields) ∧ fields.lookup "content" = some content

/-- The reply has the shape of a completion, or misses a key; and if its report is valid, its usage
can be read. -/
def Shaped (validateJson : String → Option ReviewReport) (data : Loaded) : Prop :=
  ∃ entries, data = .dict entries ∧ (∀ choices ∈ entries.lookup "choices", ChoicesShaped choices) ∧
    ∀ text, Answers entries (.str text) → (validateJson text).isSome →
      UsageReadable ((entries.lookup "usage").getD .null)

/-- A reply that gives a report or an exception that is caught. -/
def Readable (validateJson : String → Option ReviewReport) : Reply → Prop
  | .httpError | .undecodable => True
  | .tooDeep => False
  | .loaded data => Shaped validateJson data

section
variable {α β : Type}

/-- No exception passes the handler. -/
def Survives (x : Except Raised α) : Prop := ∀ raised, x = .error raised → raised.caught = true

@[simp] theorem survives_ok {a : α} : Survives (.ok a : Except Raised α) := by
  rintro raised ⟨⟩

@[simp] theorem survives_error {raised : Raised} :
    Survives (.error raised : Except Raised α) ↔ raised.caught = true := by
  constructor
  · exact fun survives => survives raised rfl
  · rintro caught _ ⟨⟩
    exact caught

theorem survives_bind {x : Except Raised α} {f : α → Except Raised β} :
    Survives (x >>= f) ↔ Survives x ∧ ∀ a, x = .ok a → Survives (f a) := by
  cases x with
  | ok a => simp [bind, Except.bind]
  | error raised => simp [bind, Except.bind]

variable {key : String} {value : Loaded}

theorem item_eq_ok {found : Loaded} :
    fieldOf key value = .ok found ↔
      ∃ entries, value = .dict entries ∧ entries.lookup key = some found := by
  cases value with
  | dict entries =>
      cases present : entries.lookup key <;> simp [fieldOf, present]
  | _ => simp [fieldOf]

theorem survives_fieldOf : Survives (fieldOf key value) ↔ ∃ entries, value = .dict entries := by
  cases value with
  | dict entries =>
      cases present : entries.lookup key <;> simp [fieldOf, present, Raised.caught]
  | _ => simp [fieldOf, Raised.caught]

theorem survives_first {next : Loaded → Except Raised β}
    (text : ∀ text, ¬ Survives (next (.str text))) : Survives (firstOf value >>= next) ↔
      (∃ keyed, value = .dict keyed) ∨ ∃ head others, value = .list (head :: others) ∧
        Survives (next head) := by
  cases value with
  | list items =>
      cases items with
      | nil => simp [firstOf, bind, Except.bind, Raised.caught]
      | cons head others => simp [firstOf, bind, Except.bind]
  | str chars =>
      cases present : chars.toList with
      | nil => simp [firstOf, present, bind, Except.bind, Raised.caught]
      | cons c rest => simp [firstOf, present, bind, Except.bind, text]
  | dict keyed => simp [firstOf, bind, Except.bind, Raised.caught]
  | _ => simp [firstOf, bind, Except.bind, Raised.caught]

theorem first_eq_ok_dict {fields : List (String × Loaded)} :
    firstOf value = .ok (.dict fields) ↔ ∃ others, value = .list (.dict fields :: others) := by
  cases value with
  | list items => cases items <;> simp [firstOf]
  | str chars => cases present : chars.toList <;> simp [firstOf, present]
  | _ => simp [firstOf]

theorem survives_message {choice : Loaded} :
    Survives (fieldOf "message" choice >>= fieldOf "content") ↔ ∃ fields, choice = .dict fields ∧
      ∀ message ∈ fields.lookup "message", ∃ inner, message = .dict inner := by
  rw [survives_bind, survives_fieldOf]
  constructor
  · rintro ⟨⟨fields, rfl⟩, later⟩
    refine ⟨fields, rfl, ?_⟩
    intro message answered
    exact survives_fieldOf.mp (later message (item_eq_ok.mpr ⟨fields, rfl, answered⟩))
  · rintro ⟨fields, rfl, shaped⟩
    refine ⟨⟨fields, rfl⟩, ?_⟩
    intro message found
    obtain ⟨_, same, answered⟩ := item_eq_ok.mp found
    obtain rfl := Loaded.dict.inj same
    exact survives_fieldOf.mpr (shaped message answered)

theorem survives_choices {choices : Loaded} :
    Survives (firstOf choices >>= fun choice => fieldOf "message" choice >>= fieldOf "content") ↔
      ChoicesShaped choices := by
  have text (text : String) : ¬ Survives (fieldOf "message" (.str text) >>= fieldOf "content") := by
    rw [survives_message]
    rintro ⟨fields, ⟨⟩, -⟩
  rw [survives_first text]
  apply or_congr_right
  constructor
  · rintro ⟨head, others, rfl, survives⟩
    obtain ⟨choice, rfl, shaped⟩ := survives_message.mp survives
    exact ⟨choice, others, rfl, shaped⟩
  · rintro ⟨choice, others, rfl, shaped⟩
    exact ⟨.dict choice, others, rfl, survives_message.mpr ⟨choice, rfl, shaped⟩⟩

theorem survives_readContent {data : Loaded} : Survives (readContent data) ↔
    ∃ entries, data = .dict entries ∧ ∀ choices ∈ entries.lookup "choices", ChoicesShaped choices := by
  unfold readContent
  rw [survives_bind, survives_fieldOf]
  constructor
  · rintro ⟨⟨entries, rfl⟩, later⟩
    refine ⟨entries, rfl, ?_⟩
    intro choices listed
    exact survives_choices.mp (later choices (item_eq_ok.mpr ⟨entries, rfl, listed⟩))
  · rintro ⟨entries, rfl, shaped⟩
    refine ⟨⟨entries, rfl⟩, ?_⟩
    intro choices found
    obtain ⟨_, same, listed⟩ := item_eq_ok.mp found
    obtain rfl := Loaded.dict.inj same
    exact survives_choices.mpr (shaped choices listed)

theorem readContent_eq_ok {data content : Loaded} : readContent data = .ok content ↔
    ∃ entries, data = .dict entries ∧ Answers entries content := by
  unfold readContent
  simp only [bind_eq_ok, item_eq_ok]
  constructor
  · rintro ⟨choices, ⟨entries, rfl, listed⟩, choice, head, message, ⟨fields, rfl, answered⟩,
      inner, rfl, held⟩
    obtain ⟨others, rfl⟩ := first_eq_ok_dict.mp head
    exact ⟨entries, rfl, fields, others, inner, listed, answered, held⟩
  · rintro ⟨entries, rfl, choice, others, fields, listed, answered, held⟩
    exact ⟨_, ⟨entries, rfl, listed⟩, .dict choice, first_eq_ok_dict.mpr ⟨others, rfl⟩, _,
      ⟨choice, rfl, answered⟩, fields, rfl, held⟩

theorem survives_countOf : Survives (countOf value) ↔ Convertible value := by
  cases value with
  | null => simp [countOf, Loaded.truthy, Convertible]
  | bool flag => cases flag <;> simp [countOf, intOf, Loaded.truthy, Convertible]
  | int n => by_cases zero : n = 0 <;> simp [countOf, intOf, Loaded.truthy, Convertible, zero]
  | float q => by_cases zero : q = 0 <;> simp [countOf, intOf, Loaded.truthy, Convertible, zero]
  | infinity => simp [countOf, intOf, Loaded.truthy, Convertible, Raised.caught]
  | nan => simp [countOf, intOf, Loaded.truthy, Convertible, Raised.caught]
  | str text =>
      by_cases empty : text = ""
      · simp [countOf, Loaded.truthy, Convertible, empty]
      · cases read : Text.toInt text <;>
          simp [countOf, intOf, Loaded.truthy, Convertible, empty, read, Raised.caught]
  | list items => cases items <;> simp [countOf, intOf, Loaded.truthy, Convertible, Raised.caught]
  | dict entries => cases entries <;> simp [countOf, intOf, Loaded.truthy, Convertible, Raised.caught]

theorem survives_priced {tokens : Int} : Survives (priced tokens) ↔ tokens.natAbs < floatLimit := by
  unfold priced
  split
  · rename_i small
    simp [small]
  · rename_i large
    simp [large, Raised.caught]

theorem survives_readCounts : Survives (readCounts value) ↔
    ∃ counts, value = .dict counts ∧ TokensReadable counts := by
  cases value with
  | dict counts =>
      have only : (∃ others, Loaded.dict counts = .dict others ∧ TokensReadable others) ↔
          TokensReadable counts := by simp
      rw [only]
      unfold readCounts valueOf TokensReadable
      simp only [survives_bind, survives_countOf, survives_priced, survives_ok, true_and,
        Except.ok.injEq, forall_eq', implies_true, and_true]
      apply and_congr_right
      intro _
      apply forall₂_congr
      intro input _
      apply and_congr_right
      intro _
      apply forall₂_congr
      intro output _
      apply and_congr_right
      intro small
      simp [priced, small]
  | _ => simp [readCounts, valueOf, survives_bind, Raised.caught]

theorem tokensReadable_nil : TokensReadable [] := by
  have positive : 0 < floatLimit := by
    unfold floatLimit
    positivity
  refine ⟨trivial, ?_⟩
  rintro input same
  obtain rfl := Except.ok.inj same
  refine ⟨trivial, ?_⟩
  rintro output same
  obtain rfl := Except.ok.inj same
  exact ⟨positive, positive⟩

theorem survives_readTokens {entries : List (String × Loaded)} :
    Survives (readTokens (.dict entries)) ↔
      UsageReadable ((entries.lookup "usage").getD .null) := by
  change Survives (readCounts _) ↔ _
  rw [survives_readCounts]
  unfold UsageReadable
  split
  · rename_i given
    simp [given]
  · rename_i absent
    simp [absent, tokensReadable_nil]

theorem survives_readReport {validateJson : String → Option ReviewReport} {content : Loaded} :
    Survives (readReport validateJson content) := by
  cases content with
  | str text => cases valid : validateJson text <;> simp [readReport, valid, Raised.caught]
  | _ => simp [readReport, Raised.caught]

theorem readReport_ok_iff {validateJson : String → Option ReviewReport} {content : Loaded} :
    (∃ report, readReport validateJson content = .ok report) ↔
      ∃ text, content = .str text ∧ (validateJson text).isSome := by
  cases content with
  | str text => cases valid : validateJson text <;> simp [readReport, valid]
  | _ => simp [readReport]

/-- No exception passes the handler exactly for the replies that can be read. -/
theorem survives_readReply {validateJson : String → Option ReviewReport} {reply : Reply} :
    Survives (readReply validateJson reply) ↔ Readable validateJson reply := by
  cases reply with
  | httpError => simp [readReply, Reply.json, Readable, survives_bind, Raised.caught]
  | undecodable => simp [readReply, Reply.json, Readable, survives_bind, Raised.caught]
  | tooDeep => simp [readReply, Reply.json, Readable, survives_bind, Raised.caught]
  | loaded data =>
      change Survives (readContent data >>= fun content => readReport validateJson content >>=
        fun report => readTokens data >>= fun tokens => .ok (report, tokens)) ↔ Shaped validateJson data
      rw [survives_bind, survives_readContent]
      constructor
      · rintro ⟨⟨entries, rfl, shaped⟩, later⟩
        refine ⟨entries, rfl, shaped, ?_⟩
        intro text answers valid
        have survives := later _ (readContent_eq_ok.mpr ⟨entries, rfl, answers⟩)
        obtain ⟨report, read⟩ := readReport_ok_iff.mpr ⟨text, rfl, valid⟩
        have tokens := (survives_bind.mp survives).2 report read
        exact survives_readTokens.mp (survives_bind.mp tokens).1
      · rintro ⟨entries, rfl, shaped, usage⟩
        refine ⟨⟨entries, rfl, shaped⟩, ?_⟩
        intro content found
        obtain ⟨_, same, answers⟩ := readContent_eq_ok.mp found
        obtain rfl := Loaded.dict.inj same
        refine survives_bind.mpr ⟨survives_readReport, ?_⟩
        intro report read
        obtain ⟨text, rfl, valid⟩ := readReport_ok_iff.mp ⟨report, read⟩
        refine survives_bind.mpr ⟨survives_readTokens.mpr (usage text answers valid), ?_⟩
        exact fun tokens _ => survives_ok

end

section critics
variable {model : CriticModel} {input : CriticInput} {reply : Reply}

theorem criticModelPayload_ok_iff {floatRepr : ℚ → String} {context : CriticContext} :
    (∃ payload, criticModelPayload floatRepr context = .ok payload) ↔
      (context.encoded floatRepr).length ≤ 16000 ∨
        (context.withoutReviews.encoded floatRepr).length ≤ 16000 := by
  unfold criticModelPayload
  dsimp only
  split
  · rename_i short
    simp [short]
  · rename_i long
    split
    · rename_i short
      simp [short]
    · rename_i still
      simp [long, still]

theorem prepare_ok_iff : model.prepare input = .ok () ↔ Fits model.floatRepr input := by
  unfold CriticModel.prepare Fits
  cases input.context with
  | none => simp
  | some context =>
      simp only [Option.mem_def, Option.some.injEq, forall_eq']
      rw [← criticModelPayload_ok_iff]
      cases criticModelPayload model.floatRepr context with
      | ok payload => simp [Except.map]
      | error raised => simp [Except.map]

/-- The model-based critic for what is made of the reply. -/
theorem judge_eq_modelReview {plan : Plan} {read : Except Raised (ReviewReport × Int × Int)} :
    (model.judge plan read).toOption = modelReview model.limits plan (modelResponse read) := by
  unfold CriticModel.judge modelResponse modelReview
  cases read with
  | error raised =>
      dsimp only
      split
      · rfl
      · rfl
  | ok answer =>
      obtain ⟨report, inputTokens, outputTokens⟩ := answer
      simp only [ModelResponse.accepted, Int.lt_toNat]
      split
      · rfl
      · cases reviewedEvaluation plan with
        | none => rfl
        | some evaluation => rfl

theorem judge_ok_iff {plan : Plan} {read : Except Raised (ReviewReport × Int × Int)} :
    (∃ report, model.judge plan read = .ok report) ↔ Survives read := by
  unfold CriticModel.judge
  cases read with
  | error raised => cases caught : raised.caught <;> simp [caught]
  | ok answer =>
      refine iff_of_true ?_ survives_ok
      obtain ⟨report, inputTokens, outputTokens⟩ := answer
      dsimp only
      split
      · exact ⟨_, rfl⟩
      · cases reviewedEvaluation plan with
        | none => exact ⟨_, rfl⟩
        | some evaluation => exact ⟨_, rfl⟩

theorem run_ok_iff : (∃ report, model.run input reply = .ok report) ↔
    Fits model.floatRepr input ∧ Readable model.validateJson reply := by
  unfold CriticModel.run
  rw [← survives_readReply, ← @judge_ok_iff model input.plan, ← prepare_ok_iff]
  simp only [bind_eq_ok]
  constructor
  · rintro ⟨report, ⟨⟩, prepared, judged⟩
    exact ⟨prepared, report, judged⟩
  · rintro ⟨prepared, report, judged⟩
    exact ⟨report, (), prepared, judged⟩

theorem run_modelReview {report : ReviewReport} (ran : model.run input reply = .ok report) :
    modelReview model.limits input.plan (modelResponse (readReply model.validateJson reply)) =
      some report := by
  unfold CriticModel.run at ran
  obtain ⟨_, -, judged⟩ := bind_eq_ok.mp ran
  rw [← judge_eq_modelReview, judged]
  rfl

/-- A context whose requirement has a long `required_task_order`. -/
def orderedContext (size : Nat) : CriticContext where
  originalRequirement := .dict [("constraints", .dict [("hard", .dict [("required_task_order",
    .list (List.replicate size (.int 0)))])])]
  planArtifact := [("status", .str "infeasible")]
  constraintEvidence := .dict []
  toolExecutionSummary := .list []
  currentState := .dict []

theorem length_orderedContext {floatRepr : ℚ → String} (size : Nat) :
    2 * size ≤ ((orderedContext size).encoded floatRepr).length := by
  have order := @Loaded.length_dumps_list floatRepr (List.replicate size (.int 0))
  rw [List.length_replicate] at order
  obtain ⟨others, written⟩ : ∃ others, (orderedContext size).encoded floatRepr =
      Loaded.dumps floatRepr (.dict (("original_requirement", .dict [("constraints", .dict [("hard",
        .dict [("required_task_order", .list (List.replicate size (.int 0)))])])]) :: others)) := by
    unfold CriticContext.encoded CriticContext.modelDump orderedContext
    simp only [Loaded.mapStrings, Loaded.mapStringsEntries, Loaded.mapStringsItems_replicate_int]
    exact ⟨_, rfl⟩
  rw [written]
  have hard := @Loaded.length_dumps_value floatRepr _ _ _ (List.mem_singleton_self
    ("required_task_order", Loaded.list (List.replicate size (.int 0))))
  have constraints := @Loaded.length_dumps_value floatRepr _ _ _ (List.mem_singleton_self
    ("hard", Loaded.dict [("required_task_order", .list (List.replicate size (.int 0)))]))
  have requirement := @Loaded.length_dumps_value floatRepr _ _ _ (List.mem_singleton_self
    ("constraints", Loaded.dict [("hard", .dict [("required_task_order",
      .list (List.replicate size (.int 0)))])]))
  have whole := @Loaded.length_dumps_value floatRepr _ _ _ (List.mem_cons_self (l := others)
    (a := ("original_requirement", Loaded.dict [("constraints", .dict [("hard",
      .dict [("required_task_order", .list (List.replicate size (.int 0)))])])])))
  omega

end critics

end MapGo.Planning
