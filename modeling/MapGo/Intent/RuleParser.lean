import MapGo.Regex
import MapGo.Conversation.Constraints
import MapGo.Conversation.Preferences

/-! `RuleBasedIntentParser`, the parser of last resort. Texts are lists of characters until they
become fields of the intent, whose bounds the schema checks. -/
namespace MapGo.Intent

open Regex
open MapGo.Route (TransportMode)
open MapGo.Conversation (Leaves Preferences parsedPreferences ConstraintSet ruleConstraints
  fallbackConstraints)

def maxPlanningTasks : Nat := 24

/-! Splitting a text into actions. -/

/-- `(?:去|到|是)?` -/
def going : Regex := opt (words "去" ["到", "是"])

/-- `_action_split` -/
def actionSplit : Regex :=
  choice (plus (oneOf "，,；;。\n")) (["然后", "接着", "最后", "再", "顺路", "先"].map fun marker =>
    .seq (word marker) going)

def numeral : Regex := oneOf "一二三四五六七八九十"

/-- `\d{1,2}` -/
def oneOrTwoDigits : Regex := .seq digit (upTo digit 1)

/-- `(?:\d{1,2}|[一二三四五六七八九十]+)[.、)）]\s*` -/
def listNumber : Regex :=
  concat [.alt oneOrTwoDigits (plus numeral), oneOf ".、)）", many space]

/-- `_list_marker` -/
def listMarker : Regex :=
  concat [.alt .start (.char (· == '\n')), many space, listNumber]

/-- `strip(" 。.!！\t")` -/
def stripMarks (text : List Char) : List Char :=
  let marks (c : Char) : Bool := " 。.!！\t".toList.contains c
  ((text.dropWhile marks).reverse.dropWhile marks).reverse

/-- Words that a pasted place name does not have. -/
def proseWords : Regex :=
  words "出发" ["分钟", "小时", "之前", "以后", "尽量", "希望", "需要"]

def compactName (part : List Char) : Bool :=
  1 < part.length && part.length ≤ 30 && (proseWords.search part).isNone

/-- `_split_actions` -/
def splitActions (text : List Char) : List (List Char) :=
  let normalized := listMarker.sub ['\n'] (Text.stripped text)
  let pieces := ((actionSplit.split normalized).map stripMarks).filter (· ≠ [])
  match pieces with
  | [piece] =>
      let parts := ((plus space).split piece).filter (· ≠ [])
      if 2 ≤ parts.length ∧ parts.length ≤ maxPlanningTasks ∧ parts.all compactName then parts
      else pieces
  | _ => pieces

/-! The place of an action. -/

def genericActions : List (List Char × List Char) :=
  [("吃饭", "餐厅"), ("吃东西", "餐厅"), ("买药", "药店"), ("买水果", "水果店"), ("买东西", "商场"),
    ("取快递", "快递"), ("取件", "快递"), ("购物", "商场"), ("喝咖啡", "咖啡")].map fun entry =>
      (entry.1.toList, entry.2.toList)

def leadingVerb : Regex :=
  concat [.start, words "去" ["到", "前往", "前去", "找", "搜索", "查找", "游览", "参观", "逛"],
    many space]

def leadingQualifiers : Regex :=
  .seq .start (plus (.seq (words "一家" ["一个", "附近的", "最近的", "评分高的", "口碑好的"])
    (many space)))

def trailingAction : Regex :=
  concat [words "买" ["取", "吃", "喝", "逛", "参观", "游览", "办理"],
    opt (words "东西" ["水果", "晚饭", "午饭", "早餐", "咖啡", "业务", "手续", "街"]), .finish]

/-- `_location_from_action` -/
def locationFromAction (piece : List Char) : List Char :=
  let location := Text.stripped piece
  match genericActions.lookup location with
  | some place => place
  | none =>
      let location := leadingVerb.sub [] location
      let location := leadingQualifiers.sub [] location
      let location := Text.stripped (trailingAction.sub [] location)
      (genericActions.lookup location).getD location

/-! Times. -/

/-- A clock time in Shanghai; days are counted. -/
structure Moment where
  day : Int
  hour : Fin 24
  minute : Fin 60
  deriving DecidableEq

/-- A time out of range, or a field that breaks its schema. -/
inductive ParseError where
  | valueError
  | validationError
  deriving DecidableEq

/-- `value.replace(hour=hour, minute=minute)` -/
def clock (day : Int) (hour minute : Nat) : Except ParseError Moment :=
  if valid : hour < 24 ∧ minute < 60 then .ok ⟨day, ⟨hour, valid.1⟩, ⟨minute, valid.2⟩⟩
  else .error .valueError

/-- The numerals as digits, one after the other. -/
def withDigits (text : List Char) : List Char :=
  [("十二", "12"), ("十一", "11"), ("十", "10"), ("九", "9"), ("八", "8"), ("七", "7"), ("六", "6"),
    ("五", "5"), ("四", "4"), ("三", "3"), ("两", "2"), ("二", "2"), ("一", "1")].foldl
      (fun text entry => (word entry.1).sub entry.2.toList text) text

def clockMark : Regex := oneOf ":：点时"

/-- `(?:(明天|后天|今天).{0,8})?([0-2]?\d)(?:[:：点时]([0-5]?\d)?)` -/
def clockPattern : Regex :=
  concat [opt (.seq (.group 1 (words "明天" ["后天", "今天"])) (upTo dot 8)),
    .group 2 (.seq (opt (oneOf "012")) digit),
    .seq clockMark (opt (.group 3 (.seq (opt (oneOf "012345")) digit)))]

/-- `_datetime` -/
def datetime (today : Int) (text context : List Char) : Except ParseError (Option Moment) :=
  let text := withDigits text
  match clockPattern.search text with
  | none => .ok none
  | some found =>
      let dayDelta :=
        if found.group 1 = some "明天".toList then 1
        else if found.group 1 = some "后天".toList then 2 else 0
      let hour := natural ((found.group 2).getD [])
      let hour :=
        if "下午".toList <:+: context ++ text ∧ hour < 12 then hour + 12 else hour
      (clock (today + dayDelta) hour (natural ((found.group 3).getD []))).map some

/-! One action. -/

/-- The texts of `ignored`. -/
def ignored : List (List Char) :=
  ["尽量少走路", "尽量省钱", "路程最短", "距离最短", "最短时间", "用时最少", "尽快", "不想爬山",
    "不要爬山", "希望轻松旅游", "希望悠闲旅游"].map String.toList

def connectives : Regex := words "并且" ["并", "且", "而且", "同时", "另外", "此外"]

/-- A connective ahead of a wish. -/
def joinedWish : Regex :=
  concat [.start, connectives,
    .ahead (words "要求" ["希望", "需要", "请", "尽量", "优先", "最好", "要"])]

def byTransport : Regex :=
  concat [.start,
    choice (.seq (opt (words "坐" ["乘", "搭", "换乘"])) (words "公共交通" ["公交", "地铁", "轻轨", "车"]))
      [word "坐车", word "乘车", word "换乘"],
    opt (words "去" ["到"]), many space]

def leadingGo : Regex :=
  concat [.start, words "去" ["到", "是", "前往", "前去"], many space]

def trailingWish : Regex :=
  .seq (.group 1 (words "尽量少走路" ["尽量省钱", "路程最短", "不想爬山", "不要爬山", "希望轻松旅游"]))
    .finish

/-- The description of an action, unless it only states a preference. -/
def describe (piece : List Char) : Option (List Char) :=
  if piece = [] ∨ piece ∈ ignored then none
  else
    let piece := Text.stripped (joinedWish.sub [] piece)
    if piece = [] ∨ piece ∈ ignored then none
    else
      let piece := (Regex.seq .start listNumber).sub [] piece
      let piece := Text.stripped (byTransport.sub [] piece)
      let piece := Text.stripped (leadingGo.sub [] piece)
      some (Text.stripped (trailingWish.sub [] piece))

/-- `(?:[:：点时]\d{0,2})?` -/
def clockSuffix : Regex := opt (.seq clockMark (upTo digit 2))

/-- The time ahead of `前` -/
def deadlinePattern : Regex :=
  .seq (.group 1 (concat [opt (words "今天" ["明天", "后天"]), upTo dot 4,
    .alt (.seq numeral (upTo numeral 1)) oneOrTwoDigits, clockSuffix])) (word "前")

/-- The time ahead of `从` -/
def departurePattern : Regex :=
  let numeral := oneOf "一二两三四五六七八九十"
  .seq (.group 1 (concat [opt (words "明天" ["后天", "今天"]), upTo dot 5,
    opt (words "上午" ["下午", "晚上"]), .alt (.seq numeral (upTo numeral 1)) oneOrTwoDigits,
    clockSuffix])) (word "从")

/-- A stay of up to three digits of minutes. -/
def stayPattern : Regex :=
  concat [words "停留" ["待", "逛"], .group 1 (.seq digit (upTo digit 2)), word "分钟"]

/-- What an action says besides its place. -/
def besides : Regex :=
  choice
    (concat [opt (word "在"), opt (words "今天" ["明天", "后天"]),
      opt (words "上午" ["下午", "晚上"]), oneOrTwoDigits, clockSuffix, word "前"])
    [concat [words "停留" ["待", "逛"], .seq digit (upTo digit 2), word "分钟"], word "五点前",
      words "尽量少走路" ["尽量省钱", "路程最短", "距离最短", "最短时间", "用时最少", "尽快", "不想爬山",
        "不要爬山", "希望轻松旅游", "希望悠闲旅游"]]

def bareWish : Regex :=
  .seq (opt connectives) (words "要求" ["希望", "需要", "要", "请安排", "帮我安排"])

/-- The place of a described action; the empty text for none. -/
def locate (piece : List Char) : List Char :=
  let location := locationFromAction (Text.stripped (besides.sub [] piece))
  if bareWish.fullmatch location then [] else location

/-- The group of the match in a text. -/
def capture (r : Regex) (index : Nat) (text : List Char) : Option (List Char) :=
  (r.search text).bind fun found => found.group index

def deadlineOf (today : Int) (text : List Char) (departure : Option Moment) (piece : List Char) :
    Except ParseError (Option Moment) :=
  match capture deadlinePattern 1 piece with
  | none => .ok none
  | some phrase => do
      let deadline ← datetime today phrase text
      let dated := ["今天", "明天", "后天"].any fun word => decide (word.toList <:+: phrase)
      match deadline, departure with
      | some deadline, some departure =>
          .ok (some (if dated then deadline else { deadline with day := departure.day }))
      | _, _ => .ok deadline

/-- `service_duration_minutes` -/
def stay (piece : List Char) : Nat := (capture stayPattern 1 piece).elim 0 natural

/-- `PlanningTask`, as far as the parser fills it. -/
structure ParsedTask where
  description : String
  locationName : String
  serviceDurationMinutes : Nat
  deadline : Option Moment
  description_bounds : 1 ≤ description.length ∧ description.length ≤ 300
  location_bound : locationName.length ≤ 200
  service_bound : serviceDurationMinutes ≤ 1440

def planningTask (description location : List Char) (service : Nat) (deadline : Option Moment) :
    Except ParseError ParsedTask :=
  if valid : (1 ≤ (String.ofList description).length ∧ (String.ofList description).length ≤ 300) ∧
      (String.ofList location).length ≤ 200 ∧ service ≤ 1440 then
    .ok ⟨String.ofList description, String.ofList location, service, deadline, valid.1, valid.2.1,
      valid.2.2⟩
  else .error .validationError

/-- One turn of the loop over the pieces. -/
def taskOf (today : Int) (text : List Char) (departure : Option Moment) (piece : List Char) :
    Except ParseError (Option ParsedTask) :=
  match describe piece with
  | none => .ok none
  | some piece => do
      let deadline ← deadlineOf today text departure piece
      if locate piece = [] then .ok none
      else
        let task ← planningTask piece (locate piece) (stay piece) deadline
        .ok (some task)

/-! The whole request. -/

def originPattern : Regex :=
  concat [word "从", .group 1 (lazyPlus (noneOf "，,；;\n")), words "出发" ["开始"]]

/-- `^.*?出发[，,\s]*` -/
def preamble : Regex :=
  concat [.start, .star false dot, word "出发", many (.alt (oneOf "，,") space)]

def parsedMode (text : String) : TransportMode :=
  if Text.containsAny text ["开车", "驾车", "自驾"] then .driving
  else if Text.containsAny text ["公交", "地铁", "轻轨", "公共交通", "坐车", "换乘"] then .transit
  else if Text.containsAny text ["骑车", "骑行", "自行车"] then .cycling
  else .walking

def departureOf (today : Int) (text : List Char) : Except ParseError (Option Moment) :=
  match capture departurePattern 1 text with
  | none => .ok none
  | some phrase => datetime today phrase text

def originOf (text : List Char) : Option (List Char) :=
  (capture originPattern 1 text).map Text.stripped

/-- The pieces of the loop. -/
def actions (text : List Char) : List (List Char) := splitActions (preamble.sub [] text)

/-- `PlanningIntent`, as the parser fills it. -/
structure ParsedIntent (L : Leaves) where
  origin : Option String
  departureTime : Option Moment
  transportMode : TransportMode
  tasks : List ParsedTask
  preferences : Preferences
  constraints : ConstraintSet L
  origin_bound : ∀ name ∈ origin, name.length ≤ 200
  tasks_bounds : 1 ≤ tasks.length ∧ tasks.length ≤ maxPlanningTasks

def planningIntent (L : Leaves) (text : String) (origin : Option String)
    (departure : Option Moment) (tasks : List ParsedTask) : Except ParseError (ParsedIntent L) :=
  if valid : (∀ name ∈ origin, name.length ≤ 200) ∧
      1 ≤ tasks.length ∧ tasks.length ≤ maxPlanningTasks then
    .ok { origin, tasks
          departureTime := departure
          transportMode := parsedMode text
          preferences := parsedPreferences text
          constraints := ruleConstraints L (fun _ => tasks.length) text
          origin_bound := valid.1
          tasks_bounds := valid.2 }
  else .error .validationError

/-- Without a task the whole text is one. -/
def orWholeText (text : List Char) (tasks : List ParsedTask) : Except ParseError (List ParsedTask) :=
  if tasks = [] then (planningTask text text 0 none).map fun task => [task] else .ok tasks

/-- `RuleBasedIntentParser.parse` -/
def ruleParse (L : Leaves) (today : Int) (text : String) : Except ParseError (ParsedIntent L) := do
  let departure ← departureOf today text.toList
  let found ← (actions text.toList).mapM (taskOf today text.toList departure)
  let tasks ← orWholeText text.toList (found.filterMap id)
  planningIntent L text ((originOf text.toList).map String.ofList) departure
    (tasks.take maxPlanningTasks)

/-- `FallbackIntentParser.parse` for what comes of the model-based parser: an intent, or the text
of an exception. An intent without tasks counts as an exception. -/
def fallbackParse {Intent : Type} (L : Leaves) (today : Int) (text : String)
    (taskCount : Intent → Nat) (primary : Except String Intent) :
    Except ParseError (Intent ⊕ ParsedIntent L) :=
  let degraded (reason : String) : Except ParseError (Intent ⊕ ParsedIntent L) :=
    (ruleParse L today text).map fun intent =>
      .inr { intent with
        constraints := fallbackConstraints L (fun _ => intent.tasks.length) reason text }
  match primary with
  | .ok intent => if taskCount intent = 0 then degraded "模型未提取到任务" else .ok (.inl intent)
  | .error reason => degraded reason

end MapGo.Intent
