import MapGo.Agents.Planner
import MapGo.Maps.PoiSearch
import MapGo.Transition

/-! Place research. The runs of the agent wait for their tool and for the handler of their failures,
and share a cache of what the tool has returned. Other runs go on meanwhile. -/
namespace MapGo.Agents

open Assoc (firsts)
open MapGo.Maps (FloatValue Location PoiCandidate)
open MapGo.Route (Coordinate PlanningTask)
open Transition

/-- `POI_RECOVERY_CACHE_LIMIT` -/
def poiRecoveryCacheLimit : Nat := 128

/-- The functions of the standard gallery, and the setting `agent_search_max_attempts`. -/
structure SearchText where
  lower : String → String
  /-- `str.casefold` -/
  casefold : String → String
  /-- `f"{value:.6f}"` -/
  sixDecimals : FloatValue → String
  /-- `f"{value:.3f}"` -/
  threeDecimals : ℚ → String
  /-- `haversine_meters` -/
  haversine : Coordinate → Location → FloatValue
  agentSearchMaxAttempts : Int := 3

/-- `SearchAgentInput` -/
structure SearchContext where
  intent : ValidIntent
  origin : Coordinate
  city : Option String := none
  /-- `task_poi_overrides` -/
  overrides : List (String × String) := []

structure SearchQuestion where
  field : String
  reason : String
  question : String
  candidates : List PoiCandidate := []
  deriving DecidableEq

/-- What a run returns: `SearchArtifact` and the confidence of its envelope. -/
structure SearchArtifact where
  keywords : List String
  candidateGroups : List (List PoiCandidate)
  clarificationQuestions : List SearchQuestion
  recoveredFailures : Nat
  confidence : ℚ
  deriving DecidableEq

inductive SearchPhase where
  /-- The first calls are out. -/
  | searching
  /-- The first of the failures is decided next. -/
  | recovering (attempt : Nat)
  /-- A repeated call for it is out. -/
  | retrying (attempt : Nat)
  | returned (artifact : SearchArtifact)
  | raised
  deriving DecidableEq

structure SearchRun where
  context : SearchContext
  /-- There is a handler of failures. -/
  supervised : Bool
  keywords : List String
  results : List (Option (List PoiCandidate))
  failures : List Nat := []
  recoveries : Nat := 0
  phase : SearchPhase := .searching
  /-- The places that the tool returned for a task. -/
  own : List (Nat × PoiCandidate) := []

/-- The cache, the least recent key first, all runs, and the places that the tool has returned under
a key. -/
structure SearchSystem where
  cache : List (String × List PoiCandidate) := []
  runs : List SearchRun := []
  known : List (String × PoiCandidate) := []

inductive SearchAction where
  | start (context : SearchContext) (supervised : Bool)
  /-- The first calls have their answers, none where a call failed. -/
  | gathered (run : Nat) (answers : List (Option (List PoiCandidate)))
  | decide (run : Nat) (action : RecoveryAction)
  | retried (run : Nat) (answer : Option (List PoiCandidate))
  | finish (run : Nat)

namespace SearchText
variable (text : SearchText)

def maxAttempts : Nat := (max 1 (min 10 text.agentSearchMaxAttempts)).toNat

/-- `name.strip().casefold()` -/
def plainName (candidate : PoiCandidate) : String := text.casefold (Text.strip candidate.name)

def candidateKey (candidate : PoiCandidate) : String :=
  if candidate.id ≠ "" then candidate.id
  else text.plainName candidate ++ ":" ++ text.sixDecimals candidate.location.lng ++ ":" ++
    text.sixDecimals candidate.location.lat

/-- `_deduplicate` -/
def deduplicate (candidates : List PoiCandidate) : List PoiCandidate :=
  firsts text.candidateKey candidates

def hikingTerms : List String :=
  ["爬山", "登山", "徒步", "山峰", "山岳", "登山步道", "hiking", "mountain trail"]

def hikes (candidate : PoiCandidate) : Bool :=
  Text.containsAny (text.casefold (candidate.name ++ " " ++ candidate.address)) hikingTerms

/-- `_remove_hiking_candidates` -/
def removeHikingCandidates (candidates : List PoiCandidate) : List PoiCandidate :=
  candidates.filter fun candidate => !text.hikes candidate

/-- `_cache_key` -/
def cacheKey (keyword : String) (origin : Coordinate) (city : Option String) : String :=
  text.casefold (Text.strip (city.getD "")) ++ "|" ++ text.casefold (Text.strip keyword) ++ "|" ++
    text.threeDecimals origin.lng ++ "," ++ text.threeDecimals origin.lat

/-- A cached place as it is returned. -/
def cachedCopy (origin : Coordinate) (candidate : PoiCandidate) : PoiCandidate :=
  { candidate with
    source := "cache:" ++ candidate.source
    distanceMeters := some (text.haversine origin candidate.location)
    confidence := min candidate.confidence (11 / 20) }

end SearchText

/-- `_cache_results` -/
def cacheResults (key : String) (candidates : List PoiCandidate)
    (cache : List (String × List PoiCandidate)) : List (String × List PoiCandidate) :=
  if candidates = [] then cache
  else
    let moved := Assoc.erase key cache ++ [(key, candidates)]
    moved.drop (moved.length - poiRecoveryCacheLimit)

/-- `_POI_RECOVERY_CACHE.get(key, [])` -/
def cached (key : String) (cache : List (String × List PoiCandidate)) : List PoiCandidate :=
  (cache.lookup key).getD []

/-- The cache after a key was read. -/
def touch (key : String) (cache : List (String × List PoiCandidate)) :
    List (String × List PoiCandidate) :=
  if cached key cache = [] then cache
  else Assoc.erase key cache ++ [(key, cached key cache)]

/-- `_default_recovery_decision` -/
def defaultRecoveryDecision (attempt maxAttempts : Nat) (fallbackAvailable : Bool) :
    RecoveryAction :=
  if attempt < maxAttempts then .retry
  else if fallbackAvailable then .fallbackCached
  else .fallbackUnavailable

def missingChoice (index : Nat) (group : List PoiCandidate) : SearchQuestion where
  field := "tasks." ++ toString index ++ ".selected_poi_id"
  reason := "The selected POI is no longer returned by the map provider"
  question := "该地点已无法验证，请重新选择一个候选地点。"
  candidates := group.take 5

def missingPlace (index : Nat) (keyword : String) : SearchQuestion where
  field := "tasks." ++ toString index ++ ".location"
  reason := "地图 Provider 未返回可验证的真实候选地点"
  question := "没有找到“" ++ keyword ++ "”，可以提供更具体的名称或区域吗？"

def severalPlaces (index : Nat) (description : String) (group : List PoiCandidate) :
    SearchQuestion where
  field := "tasks." ++ toString index ++ ".selected_poi_id"
  reason := "同名地点存在多个候选"
  question := "任务“" ++ description ++ "”匹配到多个地点，请选择一个。"
  candidates := group.take 5

/-- The loop over the choices of the user: the groups and the choices that are missing, or a
`ValueError`. -/
def applyChoices : List (String × String) → List (List PoiCandidate) → List SearchQuestion →
    Option (List (List PoiCandidate) × List SearchQuestion)
  | [], groups, missing => some (groups, missing)
  | (rawIndex, poiId) :: rest, groups, missing =>
      match Text.toInt rawIndex with
      | none => none
      | some index =>
          if index < 0 then none
          else match groups[index.toNat]? with
            | none => none
            | some group =>
                match group.find? fun item => item.id = poiId with
                | none =>
                    applyChoices rest groups (missing ++ [missingChoice index.toNat group])
                | some selected => applyChoices rest (groups.set index.toNat [selected]) missing

namespace SearchText
variable (text : SearchText)

/-- At least two places, the first three of them of one name. -/
def ambiguous (group : List PoiCandidate) : Bool :=
  2 ≤ group.length && ((group.take 3).map text.plainName).dedup.length = 1

/-- `_apply_user_choices_and_build_questions`: the groups and the questions. -/
def questions (context : SearchContext) (keywords : List String)
    (groups : List (List PoiCandidate)) : Option (List (List PoiCandidate) × List SearchQuestion) :=
  (applyChoices context.overrides groups []).map fun (groups, selectedMissing) =>
    if selectedMissing ≠ [] then (groups, selectedMissing)
    else
      let missing := (keywords.zip groups).zipIdx.filterMap fun ((keyword, group), index) =>
        if group = [] then some (missingPlace index keyword) else none
      if missing ≠ [] then (groups, missing)
      else
        let several := (context.intent.tasks.zip groups).zipIdx.filterMap
          fun ((task, group), index) =>
            if text.ambiguous group && !(context.overrides.map Prod.fst).contains (toString index)
            then some (severalPlaces index task.description group) else none
        (groups, several.take 2)

/-- The groups before the choices of the user. -/
def groups (run : SearchRun) : List (List PoiCandidate) :=
  let groups := run.results.map fun result => text.deduplicate (result.getD [])
  if run.context.intent.avoidHiking then groups.map text.removeHikingCandidates else groups

/-- `min(..., default=0.5)` over the confidences, at most 0.7 after a recovery. -/
def confidence (recoveries : Nat) (groups : List (List PoiCandidate)) : ℚ :=
  let least := ((groups.flatten.map PoiCandidate.confidence).min?).getD (1 / 2)
  if recoveries = 0 then least else min least (7 / 10)

/-- The end of `run`. -/
def finish (run : SearchRun) : SearchPhase :=
  match text.questions run.context run.keywords (text.groups run) with
  | none => .raised
  | some (groups, questions) =>
      .returned ⟨run.keywords, groups, questions, run.recoveries, confidence run.recoveries groups⟩

def keywordsOf (context : SearchContext) : List String :=
  context.intent.tasks.map fun task => recallKeyword text.lower task context.intent.discovery

/-- The key of a task in the cache. -/
def taskKey (run : SearchRun) (index : Nat) : String :=
  text.cacheKey (run.keywords.getD index "") run.context.origin run.context.city

/-- The places that a call for a task returned. -/
def accept (index : Nat) (data : List PoiCandidate) (s : SearchSystem) (run : SearchRun) :
    SearchSystem × SearchRun :=
  let normalized := text.deduplicate data
  ({ s with
      cache := cacheResults (text.taskKey run index) normalized s.cache
      known := s.known ++ data.map (text.taskKey run index, ·) },
    { run with
      results := run.results.set index (some normalized)
      own := run.own ++ data.map (index, ·) })

/-- The loop over the answers of the first calls, from a task on. -/
def acceptAll : Nat → List (Option (List PoiCandidate)) → SearchSystem → SearchRun →
    SearchSystem × SearchRun
  | _, [], s, run => (s, run)
  | index, some data :: rest, s, run =>
      let (s, run) := text.accept index data s run
      acceptAll (index + 1) rest s run
  | index, none :: rest, s, run =>
      acceptAll (index + 1) rest s { run with failures := run.failures ++ [index] }

/-- The next failure. -/
def proceed (run : SearchRun) : SearchRun :=
  { run with failures := run.failures.tail, phase := .recovering 1 }

/-- `SearchAgent.run`, as its runs wait and go on. -/
def machine : Machine SearchSystem SearchAction where
  initial s := s = {}
  step s
    | .start context supervised =>
        let keywords := text.keywordsOf context
        match keywords.mapM fun keyword =>
            SearchPoiArgs.validate keyword context.origin context.city with
        | .error _ => some s
        | .ok _ => some { s with
            runs := s.runs ++ [⟨context, supervised, keywords, keywords.map fun _ => none, [], 0,
              .searching, []⟩] }
    | .gathered place answers =>
        match s.runs[place]? with
        | none => none
        | some run =>
            if run.phase = .searching ∧ answers.length = run.keywords.length then
              let (s, run) := text.acceptAll 0 answers s run
              some { s with runs := s.runs.set place { run with phase := .recovering 1 } }
            else none
    | .decide place action =>
        match s.runs[place]? with
        | none => none
        | some run =>
            match run.phase, run.failures with
            | .recovering attempt, index :: _ =>
                let key := text.taskKey run index
                let available := (s.cache.map Prod.fst).contains key
                if run.supervised ∨
                    action = defaultRecoveryDecision attempt text.maxAttempts available then
                  let run := { run with recoveries := run.recoveries + 1 }
                  match action with
                  | .retry =>
                      some { s with runs := s.runs.set place { run with phase := .retrying attempt } }
                  | .fallbackCached =>
                      let copies := (cached key s.cache).map (text.cachedCopy run.context.origin)
                      some { s with
                        cache := touch key s.cache
                        runs := s.runs.set place
                          (proceed { run with results := run.results.set index (some copies) }) }
                  | .fallbackUnavailable =>
                      some { s with runs := s.runs.set place (proceed run) }
                else none
            | _, _ => none
    | .retried place answer =>
        match s.runs[place]? with
        | none => none
        | some run =>
            match run.phase, run.failures with
            | .retrying attempt, index :: _ =>
                match answer with
                | some data =>
                    let (s, run) := text.accept index data s run
                    some { s with runs := s.runs.set place (proceed run) }
                | none =>
                    let run := if attempt < text.maxAttempts then
                      { run with phase := .recovering (attempt + 1) } else proceed run
                    some { s with runs := s.runs.set place run }
            | _, _ => none
    | .finish place =>
        match s.runs[place]? with
        | none => none
        | some run =>
            match run.phase, run.failures with
            | .recovering _, [] =>
                some { s with runs := s.runs.set place { run with phase := text.finish run } }
            | _, _ => none

/-- The place was returned for the task, or it is a copy of one that was returned under its key. -/
def Sourced (known : List (String × PoiCandidate)) (run : SearchRun) (index : Nat)
    (c : PoiCandidate) : Prop :=
  (index, c) ∈ run.own ∨ ∃ original, (text.taskKey run index, original) ∈ known ∧
    c = text.cachedCopy run.context.origin original

/-- What a run returns. -/
structure Backed (known : List (String × PoiCandidate)) (run : SearchRun)
    (artifact : SearchArtifact) : Prop where
  length : artifact.candidateGroups.length = run.keywords.length
  sourced : ∀ index group, artifact.candidateGroups[index]? = some group →
    ∀ c ∈ group, text.Sourced known run index c
  distinct : ∀ group ∈ artifact.candidateGroups, (group.map text.candidateKey).Nodup
  walks : run.context.intent.avoidHiking = true →
    ∀ group ∈ artifact.candidateGroups, ∀ c ∈ group, text.hikes c = false
  chosen : artifact.clarificationQuestions = [] →
    (∀ group ∈ artifact.candidateGroups, group ≠ []) ∧
      ∀ choice ∈ run.context.overrides, ∃ index : Nat, ∃ c, Text.toInt choice.1 = some index ∧
        artifact.candidateGroups[index]? = some [c] ∧ c.id = choice.2
  asked : ∀ question ∈ artifact.clarificationQuestions, question.candidates.length ≤ 5 ∧
    ∃ index < run.keywords.length, ∀ c ∈ question.candidates, text.Sourced known run index c
  confident : ∀ group ∈ artifact.candidateGroups, ∀ c ∈ group,
    artifact.confidence ≤ c.confidence

section
variable {text : SearchText} {groups narrowed : List (List PoiCandidate)}
  {missing further : List SearchQuestion} {choices : List (String × String)}

/-- Each group keeps some of its places. -/
structure Narrows (narrowed groups : List (List PoiCandidate)) : Prop where
  length : narrowed.length = groups.length
  part : ∀ {index : Nat} {group}, narrowed[index]? = some group →
    ∃ whole, groups[index]? = some whole ∧ group.Sublist whole

theorem Narrows.refl (groups : List (List PoiCandidate)) : Narrows groups groups where
  length := rfl
  part found := ⟨_, found, List.Sublist.refl _⟩

theorem Narrows.trans {others : List (List PoiCandidate)} (first : Narrows narrowed groups)
    (second : Narrows groups others) : Narrows narrowed others where
  length := first.length.trans second.length
  part found := by
    obtain ⟨middle, found, part⟩ := first.part found
    obtain ⟨whole, found, part'⟩ := second.part found
    exact ⟨whole, found, part.trans part'⟩

theorem Narrows.set {index : Nat} {group : List PoiCandidate} {c : PoiCandidate}
    (found : groups[index]? = some group) (member : c ∈ group) :
    Narrows (groups.set index [c]) groups where
  length := List.length_set
  part {i selected} set := by
    rw [List.getElem?_set] at set
    split at set
    · rename_i same
      subst same
      split at set
      · obtain rfl := Option.some.inj set
        exact ⟨group, found, List.singleton_sublist.mpr member⟩
      · cases set
    · exact ⟨selected, set, List.Sublist.refl _⟩

/-- The choices of the user narrow the groups. If none of them is missing, each is the only place of
its group. -/
theorem applyChoices_spec (applied : applyChoices choices groups missing = some (narrowed, further)) :
    Narrows narrowed groups ∧ missing <+: further ∧
      (∀ question ∈ further, question ∈ missing ∨ (question.candidates.length ≤ 5 ∧
        ∃ index : Nat, ∃ group, groups[index]? = some group ∧ question.candidates ⊆ group)) ∧
      (further = missing →
        (∀ (index : Nat) c, groups[index]? = some [c] → narrowed[index]? = some [c]) ∧
        ∀ choice ∈ choices, ∃ index : Nat, ∃ c, Text.toInt choice.1 = some (index : Int) ∧
          narrowed[index]? = some [c] ∧ c.id = choice.2) := by
  induction choices generalizing groups missing with
  | nil =>
      cases applied
      exact ⟨.refl _, List.prefix_rfl, fun _ member => .inl member,
        fun _ => ⟨fun _ _ found => found, fun _ => nofun⟩⟩
  | cons choice rest ih =>
      obtain ⟨rawIndex, poiId⟩ := choice
      rw [applyChoices] at applied
      split at applied
      · cases applied
      rename_i index read
      split at applied
      · cases applied
      rename_i nonneg
      obtain ⟨place, rfl⟩ := Int.eq_ofNat_of_zero_le (not_lt.mp nonneg)
      rw [Int.toNat_natCast] at applied
      split at applied
      · cases applied
      rename_i group found
      split at applied
      · obtain ⟨narrows, grows, asked, -⟩ := ih applied
        have longer : missing <+: further := (List.prefix_append ..).trans grows
        refine ⟨narrows, longer, fun question member => ?_, fun same => ?_⟩
        · obtain earlier | later := asked question member
          · rcases List.mem_append.mp earlier with old | new
            · exact .inl old
            · rw [List.mem_singleton.mp new]
              exact .inr ⟨List.length_take_le _ _, place, group, found, List.take_subset _ _⟩
          · exact .inr later
        · have length := grows.length_le
          rw [same, List.length_append, List.length_singleton] at length
          omega
      · rename_i selected chosen
        obtain ⟨narrows, grows, asked, kept⟩ := ih applied
        have member := List.mem_of_find?_eq_some chosen
        have once := Narrows.set found member
        refine ⟨narrows.trans once, grows, fun question inside => ?_, fun same => ?_⟩
        · obtain earlier | ⟨few, i, part, held, offered⟩ := asked question inside
          · exact .inl earlier
          · obtain ⟨whole, held, part⟩ := once.part held
            exact .inr ⟨few, i, whole, held, fun _ taken => part.subset (offered taken)⟩
        · obtain ⟨keeps, rest⟩ := kept same
          have bound : place < groups.length := (List.getElem?_eq_some_iff.mp found).1
          have set : (groups.set place [selected])[place]? = some [selected] := by
            rw [List.getElem?_set_self bound]
          refine ⟨fun i c alone => keeps i c ?_, List.forall_mem_cons.mpr ⟨?_, rest⟩⟩
          · by_cases here : place = i
            · subst here
              rw [found] at alone
              obtain rfl := Option.some.inj alone
              rw [set, List.mem_singleton.mp member]
            · rw [List.getElem?_set_ne here, alone]
          · have named := List.find?_some chosen
            exact ⟨place, selected, read, keeps place selected set, of_decide_eq_true named⟩

variable {run : SearchRun} {index : Nat} {group : List PoiCandidate} {context : SearchContext}
  {keywords : List String} {asked : List SearchQuestion} {known : List (String × PoiCandidate)}

theorem groups_spec (found : (text.groups run)[index]? = some group) :
    (∃ result, run.results[index]? = some result ∧ ∀ c ∈ group, ∃ data, result = some data ∧ c ∈ data) ∧
      (group.map text.candidateKey).Nodup ∧
      (run.context.intent.avoidHiking = true → ∀ c ∈ group, text.hikes c = false) := by
  have unfiltered {unique} (held : (run.results.map fun result =>
      text.deduplicate (result.getD []))[index]? = some unique) :
      (∃ result, run.results[index]? = some result ∧
        ∀ c ∈ unique, ∃ data, result = some data ∧ c ∈ data) ∧
        (unique.map text.candidateKey).Nodup := by
    rw [List.getElem?_map] at held
    obtain ⟨result, present, rfl⟩ := Option.map_eq_some_iff.mp held
    refine ⟨⟨result, present, fun c member => ?_⟩, Assoc.firsts_distinct⟩
    obtain ⟨before, after, parts, -⟩ := Assoc.mem_firsts.mp member
    cases result with
    | none => simp at parts
    | some data => exact ⟨data, rfl, by simp [show data = before ++ c :: after from parts]⟩
  rw [groups] at found
  split at found
  · rw [List.getElem?_map] at found
    obtain ⟨unique, held, rfl⟩ := Option.map_eq_some_iff.mp found
    obtain ⟨⟨result, present, inside⟩, distinct⟩ := unfiltered held
    refine ⟨⟨result, present, fun c member => inside c (List.mem_of_mem_filter member)⟩,
      distinct.sublist ((List.filter_sublist).map _), fun _ c member => ?_⟩
    simpa using (List.mem_filter.mp member).2
  · rename_i hiking
    obtain ⟨held, distinct⟩ := unfiltered found
    exact ⟨held, distinct, fun avoid => absurd avoid hiking⟩

theorem questions_spec (same : keywords.length = groups.length)
    (built : text.questions context keywords groups = some (narrowed, asked)) :
    Narrows narrowed groups ∧
      (∀ question ∈ asked, question.candidates.length ≤ 5 ∧ ∃ index < groups.length,
        ∀ c ∈ question.candidates, ∃ group, groups[index]? = some group ∧ c ∈ group) ∧
      (asked = [] → (∀ group ∈ narrowed, group ≠ []) ∧
        ∀ choice ∈ context.overrides, ∃ index : Nat, ∃ c, Text.toInt choice.1 = some (index : Int) ∧
          narrowed[index]? = some [c] ∧ c.id = choice.2) := by
  rw [questions] at built
  obtain ⟨⟨chosen, selectedMissing⟩, applied, built⟩ := Option.map_eq_some_iff.mp built
  obtain ⟨narrows, -, offers, kept⟩ := applyChoices_spec applied
  dsimp only at built
  split at built
  · rename_i missing
    obtain ⟨rfl, rfl⟩ := Prod.mk.inj built
    refine ⟨narrows, fun question member => ?_, fun none => absurd none missing⟩
    obtain earlier | ⟨few, index, group, found, inside⟩ := offers question member
    · cases earlier
    · exact ⟨few, index, (List.getElem?_eq_some_iff.mp found).1,
        fun c taken => ⟨group, found, inside taken⟩⟩
  rename_i complete
  rw [not_not] at complete
  split at built
  · rename_i missing
    obtain ⟨rfl, rfl⟩ := Prod.mk.inj built
    refine ⟨narrows, fun question member => ?_, fun none => absurd none missing⟩
    obtain ⟨⟨⟨keyword, group⟩, index⟩, inside, made⟩ := List.mem_filterMap.mp member
    dsimp only at made
    split at made
    · obtain rfl := Option.some.inj made
      have bound := List.snd_lt_of_mem_zipIdx inside
      rw [List.length_zip, same, narrows.length, Nat.min_self] at bound
      exact ⟨Nat.zero_le _, index, bound, fun _ => nofun⟩
    · cases made
  · rename_i found
    rw [not_not] at found
    obtain ⟨rfl, rfl⟩ := Prod.mk.inj built
    refine ⟨narrows, fun question member => ?_, fun _ => ⟨fun group inside empty => ?_,
      (kept complete).2⟩⟩
    · obtain ⟨⟨⟨task, group⟩, index⟩, inside, made⟩ :=
        List.mem_filterMap.mp (List.mem_of_mem_take member)
      dsimp only at made
      split at made
      · obtain rfl := Option.some.inj made
        have held := (List.getElem?_zip_eq_some.mp (List.mem_zipIdx_iff_getElem?.mp inside)).2
        obtain ⟨whole, present, part⟩ := narrows.part held
        exact ⟨List.length_take_le _ _, index, (List.getElem?_eq_some_iff.mp present).1,
          fun c taken => ⟨whole, present, part.subset (List.mem_of_mem_take taken)⟩⟩
      · cases made
    · obtain ⟨index, held⟩ := List.mem_iff_getElem?.mp inside
      have bound : index < keywords.length := by
        rw [same, ← narrows.length]
        exact (List.getElem?_eq_some_iff.mp held).1
      have pair : (keywords.zip chosen)[index]? = some (keywords[index], group) :=
        List.getElem?_zip_eq_some.mpr ⟨List.getElem?_eq_getElem bound, held⟩
      have question : missingPlace index keywords[index] ∈ ([] : List SearchQuestion) := by
        rw [← found]
        exact List.mem_filterMap.mpr ⟨((keywords[index], group), index),
          List.mem_zipIdx_iff_getElem?.mpr pair, if_pos empty⟩
      cases question

/-- A number at most as large as all others. -/
theorem confidence_le {recoveries : Nat} {c : PoiCandidate} (inside : group ∈ groups)
    (member : c ∈ group) : confidence recoveries groups ≤ c.confidence := by
  have listed : c.confidence ∈ groups.flatten.map PoiCandidate.confidence :=
    List.mem_map_of_mem (List.mem_flatten.mpr ⟨group, inside, member⟩)
  have least : ((groups.flatten.map PoiCandidate.confidence).min?).getD (1 / 2) ≤ c.confidence := by
    cases found : (groups.flatten.map PoiCandidate.confidence).min? with
    | none =>
        rw [List.min?_eq_none_iff.mp found] at listed
        cases listed
    | some least => exact (List.min?_eq_some_iff.mp found).2 _ listed
  rw [confidence]
  split
  · exact least
  · exact (min_le_left _ _).trans least

/-- What holds of a run at any time. -/
structure Sound (text : SearchText) (known : List (String × PoiCandidate)) (run : SearchRun) :
    Prop where
  length : run.results.length = run.keywords.length
  sourced : ∀ index data, run.results[index]? = some (some data) →
    ∀ c ∈ data, text.Sourced known run index c
  backed : ∀ artifact, run.phase = .returned artifact → text.Backed known run artifact

/-- The end of a run is backed by its results. -/
theorem Sound.finish (sound : Sound text known run) :
    ∀ artifact, text.finish run = .returned artifact → text.Backed known run artifact := by
  intro artifact ended
  rw [SearchText.finish] at ended
  split at ended
  · cases ended
  rename_i narrowed asked built
  cases ended
  have length : run.keywords.length = (text.groups run).length := by
    rw [groups, ← sound.length]
    split <;> simp
  obtain ⟨narrows, offers, complete⟩ := questions_spec length built
  have sourced : ∀ index group, (text.groups run)[index]? = some group →
      ∀ c ∈ group, text.Sourced known run index c := by
    intro index group found c member
    obtain ⟨⟨result, present, inside⟩, -⟩ := groups_spec found
    obtain ⟨data, rfl, taken⟩ := inside c member
    exact sound.sourced index data present c taken
  have wholly : ∀ group ∈ narrowed, ∃ index : Nat, ∃ whole, (text.groups run)[index]? = some whole ∧
      group.Sublist whole := by
    intro group inside
    obtain ⟨index, held⟩ := List.mem_iff_getElem?.mp inside
    obtain ⟨whole, found, part⟩ := narrows.part held
    exact ⟨index, whole, found, part⟩
  refine ⟨narrows.length.trans length.symm, ?_, ?_, ?_, complete, ?_, ?_⟩
  · intro index group held c member
    obtain ⟨whole, found, part⟩ := narrows.part held
    exact sourced index whole found c (part.subset member)
  · intro group inside
    obtain ⟨index, whole, found, part⟩ := wholly group inside
    exact (groups_spec found).2.1.sublist (part.map _)
  · intro avoid group inside c member
    obtain ⟨index, whole, found, part⟩ := wholly group inside
    exact (groups_spec found).2.2 avoid c (part.subset member)
  · intro question inside
    obtain ⟨few, index, bound, offered⟩ := offers question inside
    refine ⟨few, index, length ▸ bound, fun c member => ?_⟩
    obtain ⟨group, found, taken⟩ := offered c member
    exact sourced index group found c taken
  · exact fun group inside c member => confidence_le inside member

/-- What holds of the cache at any time. -/
structure Kept (known : List (String × PoiCandidate)) (cache : List (String × List PoiCandidate)) :
    Prop where
  small : cache.length ≤ poiRecoveryCacheLimit
  distinct : Assoc.Distinct cache
  filled : ∀ entry ∈ cache, entry.2 ≠ [] ∧ ∀ c ∈ entry.2, (entry.1, c) ∈ known

section
variable {cache : List (String × List PoiCandidate)} {key : String}
  {candidates : List PoiCandidate} {more : List (String × PoiCandidate)} {c : PoiCandidate}

theorem distinct_moved (kept : Kept known cache) (value : List PoiCandidate) :
    Assoc.Distinct (Assoc.erase key cache ++ [(key, value)]) := by
  rw [← Assoc.assign_of_absent Assoc.not_mem_erase]
  exact kept.distinct.erase.assign

theorem Kept.cacheResults (kept : Kept known cache) (grown : known ⊆ more)
    (inside : ∀ c ∈ candidates, (key, c) ∈ more) :
    Kept more (cacheResults key candidates cache) := by
  rw [Agents.cacheResults]
  split
  · exact ⟨kept.small, kept.distinct, fun entry member => ⟨(kept.filled entry member).1,
      fun c taken => grown ((kept.filled entry member).2 c taken)⟩⟩
  · rename_i some
    refine ⟨?_, ?_, fun entry member => ?_⟩
    · rw [List.length_drop]
      omega
    · exact (distinct_moved kept _).sublist ((List.drop_sublist _ _).map _)
    · rcases List.mem_append.mp (List.mem_of_mem_drop member) with earlier | last
      · obtain ⟨full, taken⟩ := kept.filled entry (List.mem_of_mem_filter earlier)
        exact ⟨full, fun c member => grown (taken c member)⟩
      · rw [List.mem_singleton.mp last]
        exact ⟨some, inside⟩

theorem Kept.known_of_cached (kept : Kept known cache) (member : c ∈ cached key cache) :
    (key, c) ∈ known := by
  rw [cached] at member
  cases found : cache.lookup key with
  | none => simp [found] at member
  | some value =>
      rw [found] at member
      exact (kept.filled _ (Assoc.mem_of_lookup found)).2 c member

theorem Kept.touch (kept : Kept known cache) : Kept known (touch key cache) := by
  rw [Agents.touch]
  split
  · exact kept
  rename_i some
  cases found : cache.lookup key with
  | none => simp [cached, found] at some
  | some value =>
      have held := Assoc.mem_of_lookup found
      have same : cached key cache = value := by rw [cached, found, Option.getD_some]
      rw [same]
      refine ⟨?_, distinct_moved kept _, fun entry member => ?_⟩
      · have shorter : (Assoc.erase key cache).length < cache.length :=
          List.length_filter_lt_length_iff_exists.mpr ⟨_, held, by simp⟩
        rw [List.length_append, List.length_singleton]
        exact shorter.trans_le kept.small
      · rcases List.mem_append.mp member with earlier | last
        · exact kept.filled entry (List.mem_of_mem_filter earlier)
        · rw [List.mem_singleton.mp last]
          exact kept.filled _ held

end

theorem Sourced.mono {more : List (String × PoiCandidate)} {c : PoiCandidate}
    (sourced : text.Sourced known run index c) (grown : known ⊆ more) :
    text.Sourced more run index c := by
  obtain own | ⟨original, returned, same⟩ := sourced
  · exact .inl own
  · exact .inr ⟨original, grown returned, same⟩

theorem Sound.mono {more : List (String × PoiCandidate)} (sound : Sound text known run)
    (grown : known ⊆ more) : Sound text more run where
  length := sound.length
  sourced index data found c member := (sound.sourced index data found c member).mono grown
  backed artifact ended :=
    let backed := sound.backed artifact ended
    { backed with
      sourced := fun index group found c member =>
        (backed.sourced index group found c member).mono grown
      asked := fun question inside => by
        obtain ⟨few, index, bound, offered⟩ := backed.asked question inside
        exact ⟨few, index, bound, fun c member => (offered c member).mono grown⟩ }

/-- What holds at any time. -/
structure Consistent (text : SearchText) (s : SearchSystem) : Prop where
  kept : Kept s.known s.cache
  runs : ∀ run ∈ s.runs, Sound text s.known run

theorem mem_deduplicate {data : List PoiCandidate} {c : PoiCandidate}
    (member : c ∈ text.deduplicate data) : c ∈ data := by
  obtain ⟨before, after, rfl, -⟩ := Assoc.mem_firsts.mp member
  simp

variable {s t : SearchSystem} {data : List PoiCandidate} {answers : List (Option (List PoiCandidate))}

theorem accept_sound (index : Nat) (data : List PoiCandidate) (kept : Kept s.known s.cache) (sound : Sound text s.known run)
    (going : ∀ artifact, run.phase ≠ .returned artifact) :
    Kept (text.accept index data s run).1.known (text.accept index data s run).1.cache ∧
      Sound text (text.accept index data s run).1.known (text.accept index data s run).2 := by
  have grown : s.known ⊆ s.known ++ data.map (text.taskKey run index, ·) :=
    List.subset_append_left ..
  constructor
  · refine kept.cacheResults grown fun c member => List.mem_append_right _ ?_
    exact List.mem_map_of_mem (mem_deduplicate member)
  · refine ⟨List.length_set.trans sound.length, fun i results found c member => ?_,
      fun artifact ended => absurd ended (going artifact)⟩
    dsimp only [accept] at found
    rw [List.getElem?_set] at found
    split at found
    · rename_i same
      subst same
      split at found
      · obtain rfl := Option.some.inj (Option.some.inj found)
        exact .inl (List.mem_append_right _ (List.mem_map_of_mem (mem_deduplicate member)))
      · cases found
    · obtain own | returned := (sound.sourced i results found c member).mono grown
      · exact .inl (List.mem_append_left _ own)
      · exact .inr returned

theorem acceptAll_sound (index : Nat) (kept : Kept s.known s.cache) (sound : Sound text s.known run)
    (going : ∀ artifact, run.phase ≠ .returned artifact) :
    let after := text.acceptAll index answers s run
    Kept after.1.known after.1.cache ∧ Sound text after.1.known after.2 ∧ s.known ⊆ after.1.known ∧
      after.1.runs = s.runs := by
  induction answers generalizing index s run with
  | nil => exact ⟨kept, sound, List.Subset.refl _, rfl⟩
  | cons answer rest ih =>
      cases answer with
      | none =>
          exact ih _ kept ⟨sound.length, sound.sourced,
            fun artifact ended => absurd ended (going artifact)⟩ going
      | some data =>
          obtain ⟨kept', sound'⟩ := accept_sound index data kept sound going
          obtain ⟨cached, ends, grown, same⟩ := ih (index + 1) kept' sound' going
          exact ⟨cached, ends, fun _ member => grown (List.mem_append_left _ member), same⟩

/-- A run goes on, and what is known grows. -/
theorem Consistent.update {place : Nat} {next : SearchRun} (consistent : Consistent text s)
    (same : t.runs = s.runs) (grown : s.known ⊆ t.known) (kept : Kept t.known t.cache)
    (sound : Sound text t.known next) :
    Consistent text { t with runs := t.runs.set place next } where
  kept := kept
  runs run member := by
    rcases List.mem_or_eq_of_mem_set member with old | rfl
    · exact (consistent.runs run (same ▸ old)).mono grown
    · exact sound

theorem Consistent.step {action : SearchAction} (consistent : Consistent text s)
    (stepped : text.machine.step s action = some t) : Consistent text t := by
  cases action with
  | start context supervised =>
      simp only [machine] at stepped
      split at stepped
      · cases stepped
        exact consistent
      · cases stepped
        refine ⟨consistent.kept, fun run member => ?_⟩
        rcases List.mem_append.mp member with old | new
        · exact consistent.runs run old
        · rw [List.mem_singleton.mp new]
          refine ⟨by simp, fun index data found => ?_, fun _ => nofun⟩
          rw [List.getElem?_map] at found
          obtain ⟨_, -, none⟩ := Option.map_eq_some_iff.mp found
          cases none
  | gathered place answers =>
      simp only [machine] at stepped
      split at stepped
      · cases stepped
      rename_i run found
      split at stepped
      · rename_i waiting
        cases stepped
        have going : ∀ artifact, run.phase ≠ .returned artifact := by simp [waiting.1]
        obtain ⟨kept, sound, grown, same⟩ := acceptAll_sound 0
          consistent.kept (consistent.runs run (List.mem_of_getElem? found)) going
        exact consistent.update same grown kept ⟨sound.length, sound.sourced, fun _ => nofun⟩
      · cases stepped
  | decide place action =>
      simp only [machine] at stepped
      split at stepped
      · cases stepped
      rename_i run found
      have sound := consistent.runs run (List.mem_of_getElem? found)
      split at stepped
      · rename_i attempt index rest phase failures
        split at stepped
        · cases action with
          | retry =>
              cases stepped
              exact consistent.update rfl (List.Subset.refl _) consistent.kept
                ⟨sound.length, sound.sourced, fun _ => nofun⟩
          | fallbackUnavailable =>
              cases stepped
              exact consistent.update rfl (List.Subset.refl _) consistent.kept
                ⟨sound.length, sound.sourced, fun _ => nofun⟩
          | fallbackCached =>
              cases stepped
              refine consistent.update (t := { s with cache := touch (text.taskKey run index) s.cache })
                rfl (List.Subset.refl _) consistent.kept.touch
                ⟨List.length_set.trans sound.length, fun i results held c member => ?_,
                  fun _ => nofun⟩
              dsimp only [proceed] at held
              rw [List.getElem?_set] at held
              split at held
              · rename_i same
                subst same
                split at held
                · obtain rfl := Option.some.inj (Option.some.inj held)
                  obtain ⟨original, copied, rfl⟩ := List.mem_map.mp member
                  exact .inr ⟨original, consistent.kept.known_of_cached copied, rfl⟩
                · cases held
              · exact sound.sourced i results held c member
        · cases stepped
      · cases stepped
  | retried place answer =>
      simp only [machine] at stepped
      split at stepped
      · cases stepped
      rename_i run found
      have sound := consistent.runs run (List.mem_of_getElem? found)
      split at stepped
      · rename_i attempt index rest phase failures
        cases answer with
        | some data =>
            cases stepped
            have going : ∀ artifact, run.phase ≠ .returned artifact := by simp [phase]
            obtain ⟨kept, accepted⟩ := accept_sound index data
              consistent.kept sound going
            exact consistent.update (t := (text.accept index data s run).1) rfl
              (List.subset_append_left ..) kept ⟨accepted.length, accepted.sourced, fun _ => nofun⟩
        | none =>
            cases stepped
            refine consistent.update rfl (List.Subset.refl _) consistent.kept ?_
            split
            · exact ⟨sound.length, sound.sourced, fun _ => nofun⟩
            · exact ⟨sound.length, sound.sourced, fun _ => nofun⟩
      · cases stepped
  | finish place =>
      simp only [machine] at stepped
      split at stepped
      · cases stepped
      rename_i run found
      have sound := consistent.runs run (List.mem_of_getElem? found)
      split at stepped
      · cases stepped
        refine consistent.update rfl (List.Subset.refl _) consistent.kept
          ⟨sound.length, sound.sourced, fun artifact ended => ?_⟩
        have backed := sound.finish artifact ended
        exact ⟨backed.length, backed.sourced, backed.distinct, backed.walks, backed.chosen,
          backed.asked, backed.confident⟩
      · cases stepped

/-- However the runs of place research interleave: the cache holds at most 128 keys, each with places
that the tool has returned under it, and what a run returns is backed by what the tool returned for
its tasks or is a marked copy from the cache. -/
theorem research_backed (text : SearchText) (s : SearchSystem)
    (reached : text.machine.Reachable s) :
    Kept s.known s.cache ∧ ∀ run ∈ s.runs, ∀ artifact, run.phase = .returned artifact →
      text.Backed s.known run artifact := by
  have consistent : Consistent text s := by
    apply reached.invariant
    · rintro s rfl
      exact ⟨⟨Nat.zero_le _, List.nodup_nil, fun _ => nofun⟩, fun _ => nofun⟩
    · exact fun consistent stepped => consistent.step stepped
  exact ⟨consistent.kept, fun run member => (consistent.runs run member).backed⟩

end

def plainText : SearchText where
  lower := id
  casefold := id
  sixDecimals _ := ""
  threeDecimals _ := ""
  haversine _ _ := .finite 40

def gallery : PoiCandidate := { id := "G", name := "gallery", location := ⟨.finite 1, .finite 1⟩ }

/-- A run finds the gallery twice; another one, whose calls fail, returns it from the cache. -/
def outage : List SearchAction :=
  [.start ⟨museumIntent none unnamed_fits, ⟨0, 0⟩, none, []⟩ false, .start ⟨museumIntent none unnamed_fits, ⟨0, 0⟩, none, []⟩ true,
    .gathered 0 [some [gallery, gallery]], .gathered 1 [none], .decide 1 .retry, .retried 1 none,
    .finish 0, .decide 1 .fallbackCached, .finish 1]

/-- What a run has returned. -/
def artifactOf (s : SearchSystem) (place : Nat) : Option SearchArtifact :=
  (s.runs[place]?).bind fun run =>
    match run.phase with
    | .returned artifact => some artifact
    | _ => none

theorem artifactOf_eq_some {s : SearchSystem} {place : Nat} {artifact : SearchArtifact}
    (returned : artifactOf s place = some artifact) :
    ∃ run ∈ s.runs, run.phase = .returned artifact := by
  obtain ⟨run, found, ended⟩ := Option.bind_eq_some_iff.mp returned
  refine ⟨run, List.mem_of_getElem? found, ?_⟩
  split at ended
  · rename_i phase
    rw [phase, Option.some.inj ended]
  · cases ended

theorem research_backed_outage : ∃ s artifact, plainText.machine.run {} outage = some s ∧
    artifact.candidateGroups = [[plainText.cachedCopy ⟨0, 0⟩ gallery]] ∧
      ∃ run ∈ s.runs, plainText.Backed s.known run artifact := by
  have ran : ((plainText.machine.run {} outage).bind fun s => artifactOf s 1).any
      (fun artifact => artifact.candidateGroups = [[plainText.cachedCopy ⟨0, 0⟩ gallery]]) = true := by
    decide +kernel
  obtain ⟨artifact, returned, groups⟩ := (Option.any_eq_true ..).mp ran
  obtain ⟨s, ran, returned⟩ := Option.bind_eq_some_iff.mp returned
  obtain ⟨run, member, ended⟩ := artifactOf_eq_some returned
  have backed := (research_backed plainText s (Machine.reachable_of_run outage rfl ran)).2 run member
    artifact ended
  exact ⟨s, artifact, ran, of_decide_eq_true groups, run, member, backed⟩

end SearchText
end MapGo.Agents
