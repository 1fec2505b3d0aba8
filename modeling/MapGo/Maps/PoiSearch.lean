import MapGo.Assoc
import MapGo.Choice
import MapGo.Maps.DistanceMatrix

/-! The search for places. A keyword that is nothing but a kind of place is searched around the
origin, any other by its name; an empty answer is followed by a search for the text. The rows that
can be read are ranked by their names and their distances. -/
namespace MapGo.Maps

open Assoc (firsts IsFirst)
open Choice (best)
open MapGo.Planning (Raised fieldOf valueOf)
open MapGo.Route (Coordinate)

/-- The location of a place that has passed the schema of a coordinate. -/
structure Location where
  lng : FloatValue
  lat : FloatValue
  deriving DecidableEq

structure PoiCandidate where
  id : String
  name : String
  address : String := ""
  location : Location
  rating : Option FloatValue := none
  distanceMeters : Option FloatValue := none
  source : String := "unknown"
  dataUpdatedAt : Option Int := none
  confidence : ℚ := 7 / 10
  district : Option String := none
  openNow : Option Bool := none
  wheelchairAccessible : Option Bool := none
  estimatedCostYuan : Option ℚ := none
  deriving DecidableEq

/-- `POI_TYPE_KEYWORDS` -/
def poiTypeKeywords : List (String × String) :=
  [("充电", "011100"), ("加油", "010100"),
    ("火锅|烧烤|餐厅|饭店|美食|小吃|咖啡|奶茶|甜品|蛋糕|面包|面馆|快餐", "050000"),
    ("超市", "060400"), ("便利店", "060200"), ("商场|购物|书店|花店|水果|服装|数码", "060000"),
    ("快递|驿站|理发|洗衣|维修|家政", "070000"), ("电影院|健身|体育馆|游乐|剧院", "080000"),
    ("药店", "090601"), ("诊所", "090200"), ("医院|急救", "090100"),
    ("酒店|宾馆|民宿|旅馆|青旅", "100000"), ("公园|景点|景区|寺庙|动物园|植物园", "110000"),
    ("小区|住宅|写字楼|商务楼", "120000"), ("学校|大学|中学|小学|培训", "140000"),
    ("停车", "150900"), ("地铁|车站|火车站|机场|公交站", "150000"), ("银行|ATM", "160000"),
    ("公司|工厂|园区", "170000"), ("厕所|卫生间|公厕", "200300")]

/-- `POI_CATEGORY_FILLERS` -/
def poiCategoryFillers : List String :=
  ["请帮我", "帮我", "帮忙", "我想要", "我想", "我要", "想要", "想吃", "想喝", "哪里有", "哪有", "附近",
    "周边", "最近", "推荐", "搜索", "查找", "找一下", "搜一下", "看一下", "买药", "吃饭", "一下", "一家",
    "一个", "去", "找", "搜", "查"]

structure PoiRequest where
  path : String
  params : List (String × String)
  deriving DecidableEq, Repr

/-- What `_get` returns or raises. -/
inductive PoiAnswer where
  | body (entries : List (String × Loaded))
  | upstreamError (message : String)
  | raised (raised : Raised)

inductive PoiError where
  | upstreamError (message : String)
  | raised (raised : Raised)
  deriving DecidableEq, Repr

/-- The rows of an answer with their origin. -/
structure PoiRows where
  rows : Loaded
  source : String
  confidence : ℚ

/-- `for item in value` -/
def itemsOf : Loaded → Except Raised (List Loaded)
  | .list items => .ok items
  | .dict entries => .ok (entries.map fun entry => .str entry.1)
  | .str text => .ok (text.toList.map fun c => .str (String.ofList [c]))
  | _ => .error .typeError

/-- The exceptions that skip a row. -/
def poiSkips : Raised → Bool
  | .keyError | .valueError | .typeError => true
  | _ => false

namespace FloatValue

/-- `a < b` -/
def less : FloatValue → FloatValue → Bool
  | .finite a, .finite b => a < b
  | .finite _, .infinity negative => !negative
  | .infinity negative, .finite _ => negative
  | .infinity first, .infinity second => first && !second
  | .nan, _ | _, .nan => false

end FloatValue

/-- The functions of the standard library and of the schema, and the time of the search. -/
structure PoiSearch where
  /-- `str.lower` -/
  lower : String → String
  /-- `str.isalnum` of a character. -/
  isalnum : Char → Bool
  /-- `str(value)` -/
  textOf : Loaded → String
  /-- The text of a float in a request. -/
  numberText : ℚ → String
  /-- `f"{value:.6f}"` -/
  sixDecimals : FloatValue → String
  /-- `haversine_meters` -/
  haversine : Coordinate → Location → FloatValue
  /-- Whether NaN meets the bounds of a coordinate. -/
  nanMeetsBound : Bool
  now : Int

namespace PoiSearch
variable (search : PoiSearch)

/-- `_matched_poi_type` -/
def matchedPoiType (keyword : String) : Option (String × String) :=
  (poiTypeKeywords.flatMap fun (words, typeCode) =>
    (Text.split '|' words).map fun word => (word, typeCode)).find? fun (word, _) =>
      Text.contains (search.lower keyword) (search.lower word)

def inferPoiType (keyword : String) : Option String :=
  (search.matchedPoiType keyword).bind fun (category, typeCode) =>
    let reduced := poiCategoryFillers.foldl (fun text filler => Text.removeAll filler text)
      (search.lower keyword)
    if String.ofList (reduced.toList.filter search.isalnum) = search.lower category then
      some typeCode
    else none

def normalizePoiKeyword (keyword : String) : String :=
  match search.inferPoiType keyword, search.matchedPoiType keyword with
  | some _, some (category, _) => category
  | _, _ => Text.strip keyword

/-- `_compact_poi_text` -/
def compactPoiText (value : String) : String :=
  String.join ((value.toList.filter search.isalnum).map fun c => search.lower (String.ofList [c]))

/-- `_poi_name_match_bucket` -/
def poiNameMatchBucket (keyword : String) (candidate : PoiCandidate) : Nat × ℚ :=
  let query := search.compactPoiText keyword
  let name := search.compactPoiText candidate.name
  let address := search.compactPoiText candidate.address
  if query = "" ∨ name = "" then (4, 0)
  else
    let bucket :=
      if name = query then 0
      else if Text.hasPrefix name query then 1
      else if Text.contains name query then 2
      else if Text.contains address query then 3
      else 4
    let letters := query.toList.dedup
    (bucket, ((letters.filter fun c => c ∈ name.toList).length : ℚ) / max 1 letters.length)

def around (keyword typeCode : String) (origin : Coordinate) (city : Option String) : PoiRequest :=
  ⟨"/v3/place/around",
    [("keywords", search.normalizePoiKeyword keyword), ("types", typeCode),
      ("location", search.numberText origin.lng ++ "," ++ search.numberText origin.lat),
      ("city", city.getD ""), ("radius", "10000"), ("sortrule", "distance"), ("offset", "10"),
      ("extensions", "all")]⟩

def inputTips (keyword : String) (origin : Coordinate) (city : Option String) : PoiRequest :=
  ⟨"/v3/assistant/inputtips",
    [("keywords", search.normalizePoiKeyword keyword), ("city", city.getD ""),
      ("citylimit", "false"), ("datatype", "poi"),
      ("location", search.numberText origin.lng ++ "," ++ search.numberText origin.lat)]⟩

def placeText (keyword : String) (city : Option String) : PoiRequest :=
  ⟨"/v3/place/text",
    [("keywords", search.normalizePoiKeyword keyword),
      ("types", (search.inferPoiType keyword).getD ""),
      ("city", (city.filter (· ≠ "")).getD "全国"), ("citylimit", "false"), ("offset", "10"),
      ("page", "1"), ("extensions", "all")]⟩

/-- The rows under a key of an answer, none of them after an upstream error. -/
def answered (field : String) : PoiAnswer → Except PoiError (Loaded × Option String)
  | .body entries => .ok ((entries.lookup field).getD (.list []), none)
  | .upstreamError message => .ok (.list [], some message)
  | .raised raised => .error (.raised raised)

/-- The first request, and the second one if it has no rows. -/
def foundRows (get : PoiRequest → PoiAnswer) (keyword : String) (origin : Coordinate)
    (city : Option String) : Except PoiError PoiRows := do
  let typeCode := search.inferPoiType keyword
  let (rows, primaryError) ← match typeCode with
    | some code => answered "pois" (get (search.around keyword code origin city))
    | none => answered "tips" (get (search.inputTips keyword origin city))
  if rows.truthy then
    return if typeCode.isSome then ⟨rows, "amap_place_around_v3", 9 / 10⟩
      else ⟨rows, "amap_inputtips_v3", 41 / 50⟩
  match get (search.placeText keyword city) with
  | .body entries =>
      return ⟨(entries.lookup "pois").getD (.list []), "amap_place_text_v3",
        if typeCode.isSome then 22 / 25 else 43 / 50⟩
  | .upstreamError message => throw (.upstreamError (primaryError.getD message))
  | .raised raised => throw (.raised raised)

/-- A bound of `Coordinate`. -/
def inside (limit : ℚ) : FloatValue → Bool
  | .finite value => -limit ≤ value && value ≤ limit
  | .infinity _ => false
  | .nan => search.nanMeetsBound

/-- `lng, lat = map(float, value.split(","))` -/
def splitLocation : Loaded → Except Raised Location
  | .str text =>
      match Text.split ',' text with
      | [lng, lat] =>
          match floatText lng, floatText lat with
          | some lng, some lat => .ok ⟨lng, lat⟩
          | _, _ => .error .valueError
      | _ => .error .valueError
  | _ => .error .attributeError

/-- `float(str(value))` -/
def number (value : Loaded) : Except Raised FloatValue :=
  (floatText (search.textOf value)).elim (.error .valueError) .ok

/-- `value in (None, [])` -/
def missing : Loaded → Bool
  | .null => true
  | .list items => items.isEmpty
  | _ => false

/-- `value in (None, "", [])` -/
def unstated : Loaded → Bool
  | .str text => text = ""
  | value => missing value

/-- The body of the `try` for a row. -/
def readPoi (origin : Coordinate) (source : String) (confidence : ℚ) (row : Loaded) :
    Except Raised PoiCandidate := do
  let point ← splitLocation (← fieldOf "location" row)
  let business ← valueOf "biz_ext" row
  let rating ← if business.truthy then valueOf "rating" business else .ok .null
  if !(search.inside 180 point.lng && search.inside 90 point.lat) then throw .valueError
  let distanceRaw ← valueOf "distance" row
  let distance ← if unstated distanceRaw then .ok (search.haversine origin point)
    else search.number distanceRaw
  let id ← fieldOf "id" row
  let name ← fieldOf "name" row
  let address ← valueOf "address" row
  let rating ← if missing rating then .ok none else (search.number rating).map some
  let region ← valueOf "adname" row
  let region ← if region.truthy then .ok region else valueOf "district" row
  let district := if region.truthy then search.textOf region else ""
  return {
    id := search.textOf id
    name := search.textOf name
    address := if address.truthy then search.textOf address else ""
    location := point
    rating := rating
    distanceMeters := some distance
    source := source
    dataUpdatedAt := some search.now
    confidence := confidence
    district := if district = "" then none else some district }

/-- The loop over the rows. -/
def readPois (origin : Coordinate) (source : String) (confidence : ℚ) :
    List Loaded → Except Raised (List PoiCandidate)
  | [] => .ok []
  | row :: rest =>
      match search.readPoi origin source confidence row with
      | .ok candidate => do return candidate :: (← readPois origin source confidence rest)
      | .error raised =>
          if poiSkips raised then readPois origin source confidence rest else .error raised

def candidateKey (candidate : PoiCandidate) : String :=
  if candidate.id ≠ "" then candidate.id
  else candidate.name ++ ":" ++ search.sixDecimals candidate.location.lng ++ ":" ++
    search.sixDecimals candidate.location.lat

/-- `item.distance_meters or 0` -/
def distanceOf (candidate : PoiCandidate) : FloatValue := candidate.distanceMeters.getD (.finite 0)

/-- The comparison of the sort keys, bucket, overlap and distance. -/
def precedes (keyword : String) (a b : PoiCandidate) : Bool :=
  let (bucket, overlap) := search.poiNameMatchBucket keyword a
  let (bucket', overlap') := search.poiNameMatchBucket keyword b
  if bucket ≠ bucket' then bucket < bucket'
  else if overlap ≠ overlap' then overlap' < overlap
  else (distanceOf a).less (distanceOf b)

/-- The name of a place is or starts with the keyword. -/
def strong (keyword : String) (candidate : PoiCandidate) : Bool :=
  (search.poiNameMatchBucket keyword candidate).1 ≤ 1

/-- The places that are ranked. -/
def pool (keyword : String) (typed : Bool) (candidates : List PoiCandidate) : List PoiCandidate :=
  let unique := firsts search.candidateKey candidates
  let strongNamedMatches := unique.filter (search.strong keyword)
  if strongNamedMatches ≠ [] ∧ ¬ typed then strongNamedMatches else unique

/-- `search_poi` -/
def searchPoi (get : PoiRequest → PoiAnswer) (keyword : String) (origin : Coordinate)
    (city : Option String) : Except PoiError (List PoiCandidate) := do
  let found ← search.foundRows get keyword origin city
  let items ← (itemsOf found.rows).mapError PoiError.raised
  let candidates ← (search.readPois origin found.source found.confidence items).mapError
    PoiError.raised
  let searchKeyword := search.normalizePoiKeyword keyword
  return best (search.precedes searchKeyword) 5
    (search.pool searchKeyword (search.inferPoiType keyword).isSome candidates)

/-- The place is read from a row, and no row before it has a place of its key. -/
def Offers (origin : Coordinate) (found : PoiRows) (items : List Loaded) (c : PoiCandidate) : Prop :=
  ∃ before row after, items = before ++ row :: after ∧
    search.readPoi origin found.source found.confidence row = .ok c ∧
    ∀ other ∈ before, ∀ c', search.readPoi origin found.source found.confidence other = .ok c' →
      search.candidateKey c' ≠ search.candidateKey c

/-- The results are the best places of the rows. -/
structure BestPlaces (keyword : String) (typed : Bool) (origin : Coordinate) (found : PoiRows)
    (items : List Loaded) (results : List PoiCandidate) : Prop where
  few : results.length ≤ 5
  distinct : (results.map search.candidateKey).Nodup
  offered : ∀ c ∈ results, search.Offers origin found items c
  named : typed = false → (∃ c, search.Offers origin found items c ∧ search.strong keyword c = true) →
    ∀ c ∈ results, search.strong keyword c = true
  ordered : (∀ c, search.Offers origin found items c → distanceOf c ≠ .nan) →
    results.Pairwise fun a b => search.precedes keyword b a = false
  complete : (∀ c, search.Offers origin found items c → distanceOf c ≠ .nan) →
    ∀ c, search.Offers origin found items c → c ∉ results →
      (typed = false ∧ search.strong keyword c = false ∧
        ∃ other, search.Offers origin found items other ∧ search.strong keyword other = true) ∨
      (results.length = 5 ∧ ∀ r ∈ results, search.precedes keyword c r = false)

section
variable {search : PoiSearch} {keyword source : String} {origin : Coordinate} {confidence : ℚ}
  {found : PoiRows} {items : List Loaded} {candidates results : List PoiCandidate}
  {a b c : PoiCandidate} {typed : Bool}

/-- What a row adds to the candidates. -/
def readable (search : PoiSearch) (origin : Coordinate) (source : String) (confidence : ℚ)
    (row : Loaded) : Option PoiCandidate :=
  (search.readPoi origin source confidence row).toOption

theorem readPois_ok (read : search.readPois origin source confidence items = .ok candidates) :
    candidates = items.filterMap (search.readable origin source confidence) ∧
      ∀ row ∈ items, ∀ raised,
        search.readPoi origin source confidence row = .error raised → poiSkips raised = true := by
  induction items generalizing candidates with
  | nil =>
      cases read
      exact ⟨rfl, fun _ => nofun⟩
  | cons row rest ih =>
      rw [readPois] at read
      cases outcome : search.readPoi origin source confidence row with
      | ok candidate =>
          rw [outcome] at read
          obtain ⟨further, ran, same⟩ := bind_eq_ok.mp read
          cases same
          obtain ⟨rfl, caught⟩ := ih ran
          have read : search.readable origin source confidence row = some candidate := by
            rw [readable, outcome]
            rfl
          refine ⟨by rw [List.filterMap_cons_some read], List.forall_mem_cons.mpr ⟨?_, caught⟩⟩
          intro raised
          rw [outcome]
          nofun
      | error raised =>
          rw [outcome] at read
          dsimp only at read
          split at read
          · rename_i skipped
            obtain ⟨rfl, caught⟩ := ih read
            have unread : search.readable origin source confidence row = none := by
              rw [readable, outcome]
              rfl
            refine ⟨by rw [List.filterMap_cons_none unread], List.forall_mem_cons.mpr ⟨?_, caught⟩⟩
            intro other same
            rw [outcome] at same
            cases same
            exact skipped
          · cases read

theorem readable_eq_some {row : Loaded} : search.readable origin source confidence row = some c ↔
    search.readPoi origin source confidence row = .ok c := by
  rw [readable]
  cases search.readPoi origin source confidence row <;> simp [Except.toOption]

/-- The first candidates of their keys are the offered places. -/
theorem isFirst_readable : IsFirst search.candidateKey
      (items.filterMap (search.readable origin found.source found.confidence)) c ↔
    search.Offers origin found items c := by
  constructor
  · rintro ⟨before, after, parts, earlier⟩
    obtain ⟨rows, rest, rfl, same, tail⟩ := List.filterMap_eq_append_iff.mp parts
    obtain ⟨skipped, row, rest', rfl, unread, read, rfl⟩ := List.filterMap_eq_cons_iff.mp tail
    refine ⟨rows ++ skipped, row, rest', by simp, readable_eq_some.mp read, ?_⟩
    intro other member c' offered
    rw [← readable_eq_some] at offered
    rcases List.mem_append.mp member with inside | passed
    · exact earlier c' (same ▸ List.mem_filterMap.mpr ⟨other, inside, offered⟩)
    · rw [unread other passed] at offered
      cases offered
  · rintro ⟨before, row, after, rfl, read, earlier⟩
    refine ⟨before.filterMap (search.readable origin found.source found.confidence),
      after.filterMap (search.readable origin found.source found.confidence), ?_, ?_⟩
    · rw [List.filterMap_append, List.filterMap_cons_some (readable_eq_some.mpr read)]
    · intro c' member
      obtain ⟨other, inside, offered⟩ := List.mem_filterMap.mp member
      exact earlier other inside c' (readable_eq_some.mp offered)

/-- Floats other than NaN in their order. -/
def extended : FloatValue → WithBot (WithTop ℚ)
  | .finite value => ((value : WithTop ℚ) : WithBot (WithTop ℚ))
  | .infinity negative => if negative then ⊥ else ((⊤ : WithTop ℚ) : WithBot (WithTop ℚ))
  | .nan => ⊥

theorem less_iff {x y : FloatValue} (left : x ≠ .nan) (right : y ≠ .nan) :
    x.less y = false ↔ extended y ≤ extended x := by
  rcases x with x | negative | _ <;> rcases y with y | other | _ <;>
    first
      | exact absurd rfl left
      | exact absurd rfl right
      | skip
  · simp [FloatValue.less, extended]
  · cases other <;> simp [FloatValue.less, extended]
  · cases negative <;> simp [FloatValue.less, extended]
  · cases negative <;> cases other <;> simp [FloatValue.less, extended]

/-- The sort key. -/
def rank (search : PoiSearch) (keyword : String) (c : PoiCandidate) :
    ℕ ×ₗ ℚ ×ₗ WithBot (WithTop ℚ) :=
  toLex ((search.poiNameMatchBucket keyword c).1,
    toLex (-(search.poiNameMatchBucket keyword c).2, extended (distanceOf c)))

/-- Without NaN the comparison is that of the sort keys. -/
theorem precedes_iff (left : distanceOf a ≠ .nan) (right : distanceOf b ≠ .nan) :
    search.precedes keyword b a = false ↔ search.rank keyword a ≤ search.rank keyword b := by
  rw [rank, rank, Prod.Lex.toLex_le_toLex, Prod.Lex.toLex_le_toLex, precedes]
  dsimp only
  split
  · rename_i buckets
    have apart : (search.poiNameMatchBucket keyword a).1 ≠ (search.poiNameMatchBucket keyword b).1 :=
      fun same => buckets same.symm
    simp only [decide_eq_false_iff_not, not_lt, apart, false_and, or_false]
    exact ⟨fun le => lt_of_le_of_ne le apart, le_of_lt⟩
  · rename_i buckets
    rw [not_not] at buckets
    simp only [buckets, lt_irrefl, true_and, false_or]
    split
    · rename_i overlaps
      have apart : -(search.poiNameMatchBucket keyword a).2 ≠
          -(search.poiNameMatchBucket keyword b).2 := fun same => overlaps (neg_inj.mp same).symm
      simp only [decide_eq_false_iff_not, not_lt, apart, false_and, or_false]
      rw [← neg_le_neg_iff]
      exact ⟨fun le => lt_of_le_of_ne le apart, le_of_lt⟩
    · rename_i overlaps
      rw [not_not] at overlaps
      simp only [overlaps, lt_irrefl, true_and, false_or]
      exact less_iff right left

theorem mem_pool (member : c ∈ search.pool keyword typed candidates) :
    IsFirst search.candidateKey candidates c := by
  rw [pool] at member
  split at member
  · exact Assoc.mem_firsts.mp (List.mem_of_mem_filter member)
  · exact Assoc.mem_firsts.mp member

theorem pool_distinct : ((search.pool keyword typed candidates).map search.candidateKey).Nodup := by
  rw [pool]
  split
  · exact Assoc.firsts_distinct.sublist ((List.filter_sublist).map _)
  · exact Assoc.firsts_distinct

/-- A place that is not ranked gives way to others that are named by the keyword. -/
theorem not_mem_pool (first : IsFirst search.candidateKey candidates c)
    (left : c ∉ search.pool keyword typed candidates) :
    typed = false ∧ search.strong keyword c = false ∧
      ∃ other, IsFirst search.candidateKey candidates other ∧ search.strong keyword other = true := by
  rw [pool] at left
  split at left
  · rename_i named
    obtain ⟨other, member⟩ := List.exists_mem_of_ne_nil _ named.1
    obtain ⟨unique, strong⟩ := List.mem_filter.mp member
    refine ⟨Bool.not_eq_true _ ▸ named.2, ?_, other, Assoc.mem_firsts.mp unique, strong⟩
    by_contra weak
    exact left (List.mem_filter.mpr ⟨Assoc.mem_firsts.mpr first, by simpa using weak⟩)
  · exact absurd (Assoc.mem_firsts.mpr first) left

/-- Places named by the keyword are ranked alone. -/
theorem strong_pool (untyped : typed = false) (first : IsFirst search.candidateKey candidates a)
    (strong : search.strong keyword a = true) (member : c ∈ search.pool keyword typed candidates) :
    search.strong keyword c = true := by
  have named : (firsts search.candidateKey candidates).filter (search.strong keyword) ≠ [] :=
    List.ne_nil_of_mem (List.mem_filter.mpr ⟨Assoc.mem_firsts.mpr first, strong⟩)
  rw [pool, if_pos ⟨named, by simp [untyped]⟩] at member
  exact (List.mem_filter.mp member).2

theorem best_places (search : PoiSearch) (keyword : String) (typed : Bool) (origin : Coordinate)
    (found : PoiRows) (items : List Loaded) :
    search.BestPlaces keyword typed origin found items (best (search.precedes keyword) 5
      (search.pool keyword typed
        (items.filterMap (search.readable origin found.source found.confidence)))) := by
  have agrees : (∀ c, search.Offers origin found items c → distanceOf c ≠ .nan) →
      ∀ a ∈ search.pool keyword typed
        (items.filterMap (search.readable origin found.source found.confidence)),
      ∀ b ∈ search.pool keyword typed
        (items.filterMap (search.readable origin found.source found.confidence)),
      search.precedes keyword b a = false ↔ search.rank keyword a ≤ search.rank keyword b :=
    fun numbers a left b right => precedes_iff (numbers a (isFirst_readable.mp (mem_pool left)))
      (numbers b (isFirst_readable.mp (mem_pool right)))
  refine ⟨Choice.length_best, Choice.best_distinct pool_distinct, ?_, ?_, ?_, ?_⟩
  · exact fun c member => isFirst_readable.mp (mem_pool (Choice.mem_of_best member))
  · rintro untyped ⟨other, offered, strong⟩ c member
    exact strong_pool untyped (isFirst_readable.mpr offered) strong (Choice.mem_of_best member)
  · intro numbers
    refine (Choice.best_sorted (agrees numbers)).imp_of_mem fun {a b} left right ordered => ?_
    exact (agrees numbers a (Choice.mem_of_best left) b (Choice.mem_of_best right)).mpr ordered
  · intro numbers c offered left
    by_cases ranked : c ∈ search.pool keyword typed
        (items.filterMap (search.readable origin found.source found.confidence))
    · refine .inr ⟨Choice.best_full ranked left, fun r taken => ?_⟩
      exact (agrees numbers r (Choice.mem_of_best taken) c ranked).mpr
        (Choice.best_le (agrees numbers) ranked left taken)
    · obtain ⟨untyped, weak, other, first, strong⟩ :=
        not_mem_pool (isFirst_readable.mpr offered) ranked
      exact .inl ⟨untyped, weak, other, isFirst_readable.mp first, strong⟩

theorem mapError_eq_ok {ε δ α : Type} {x : Except ε α} {f : ε → δ} {r : α} :
    x.mapError f = .ok r ↔ x = .ok r := by
  cases x <;> simp [Except.mapError]

/-- The search answers with the best places of the rows that were found, and only if the exceptions
of all other rows are caught. -/
theorem search_poi_best (search : PoiSearch) (get : PoiRequest → PoiAnswer) (keyword : String)
    (origin : Coordinate) (city : Option String) (results : List PoiCandidate)
    (answered : search.searchPoi get keyword origin city = .ok results) :
    ∃ found items, search.foundRows get keyword origin city = .ok found ∧
      itemsOf found.rows = .ok items ∧
      (∀ row ∈ items, ∀ raised,
        search.readPoi origin found.source found.confidence row = .error raised →
          poiSkips raised = true) ∧
      search.BestPlaces (search.normalizePoiKeyword keyword) (search.inferPoiType keyword).isSome
        origin found items results := by
  obtain ⟨found, rows, answered⟩ := bind_eq_ok.mp answered
  obtain ⟨items, listed, answered⟩ := bind_eq_ok.mp answered
  obtain ⟨candidates, read, answered⟩ := bind_eq_ok.mp answered
  cases answered
  obtain ⟨rfl, caught⟩ := readPois_ok (mapError_eq_ok.mp read)
  exact ⟨found, items, rows, mapError_eq_ok.mp listed, caught, best_places ..⟩

end

/-- No tip for a mill, and four rows of the text search. -/
def millAnswers (request : PoiRequest) : PoiAnswer :=
  if request.path = "/v3/assistant/inputtips" then .upstreamError "timeout"
  else .body [("status", .str "1"), ("pois", .list [
    .dict [("id", .str "B1"), ("name", .str "mill inn"), ("location", .str "1,1"),
      ("distance", .str "300")],
    .dict [("id", .str "B2"), ("name", .str "mill"), ("location", .str "1,2")],
    .dict [("id", .str "B2"), ("name", .str "mill"), ("location", .str "1,3")],
    .dict [("id", .str "B3"), ("name", .str "the mill"), ("location", .str "1,200")]])]

def plainSearch : PoiSearch where
  lower := id
  isalnum := Char.isAlphanum
  textOf
    | .str text => text
    | _ => "None"
  numberText value := toString value.num
  sixDecimals _ := ""
  haversine _ _ := .finite 40
  nanMeetsBound := true
  now := 0

theorem search_poi_best_mill : ∃ results,
    plainSearch.searchPoi millAnswers "mill" ⟨1, 1⟩ none = .ok results ∧
      results.map PoiCandidate.id = ["B2", "B1"] ∧
      ∃ found items, plainSearch.BestPlaces (plainSearch.normalizePoiKeyword "mill")
        (plainSearch.inferPoiType "mill").isSome ⟨1, 1⟩ found items results := by
  have ran : ((plainSearch.searchPoi millAnswers "mill" ⟨1, 1⟩ none).toOption.map
      fun results => results.map PoiCandidate.id) = some ["B2", "B1"] := by decide +kernel
  cases answered : plainSearch.searchPoi millAnswers "mill" ⟨1, 1⟩ none with
  | error _ =>
      rw [answered] at ran
      cases ran
  | ok results =>
      rw [answered] at ran
      obtain ⟨found, items, -, -, -, best⟩ :=
        search_poi_best plainSearch millAnswers "mill" ⟨1, 1⟩ none results answered
      exact ⟨results, rfl, Option.some.inj ran, found, items, best⟩

end PoiSearch
end MapGo.Maps
