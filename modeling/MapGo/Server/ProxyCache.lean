import MapGo.Assoc

/-! The cache of the AMap proxy. Its key is computed from all parameter pairs of a query, the
request upstream from the dictionary of the query, in which the last value of a name stands. -/
namespace MapGo.Server

open Assoc

/-- The paths whose responses are cached. -/
def cacheablePaths : List String :=
  ["v3/assistant/inputtips", "v3/config/district", "v3/place/text", "v3/place/around",
    "v3/geocode/regeo", "v3/weather/weatherInfo", "v3/direction/walking", "v3/direction/driving",
    "v3/direction/transit/integrated", "v4/direction/bicycling", "v5/direction/bicycling",
    "v5/direction/driving", "v5/direction/transit/integrated", "v5/direction/walking"]

def credentialParams : List String := ["key", "jscode", "csid"]

inductive Method where
  | get | post
  deriving DecidableEq, Repr

structure ProxyRequest where
  method : Method
  restPath : String
  /-- `query_params.multi_items()` -/
  query : List (String × String)
  body : List UInt8 := []
  deriving DecidableEq, Repr

structure UpstreamRequest where
  method : Method
  url : String
  params : List (String × String)
  content : List UInt8
  deriving DecidableEq, Repr

/-- `dict(request.query_params)` -/
def queryDict (query : List (String × String)) : List (String × String) :=
  query.foldl (fun params pair => assign pair.1 pair.2 params) []

/-- The order of tuples of two strings. -/
def PairLe (a b : String × String) : Prop := a.1 < b.1 ∨ a.1 = b.1 ∧ a.2 ≤ b.2

instance (a b : String × String) : Decidable (PairLe a b) :=
  inferInstanceAs (Decidable (a.1 < b.1 ∨ a.1 = b.1 ∧ a.2 ≤ b.2))

namespace ProxyRequest
variable (request : ProxyRequest)

/-- `rest_path.rstrip("/")` -/
def normalizedPath : String :=
  String.ofList (request.restPath.toList.reverse.dropWhile (· = '/')).reverse

/-- The parameter pairs without credentials. -/
def openParams : List (String × String) :=
  request.query.filter fun pair => pair.1 ∉ credentialParams

def stableParams : List (String × String) := request.openParams.insertionSort PairLe

/-- Whether the response may come from the cache. -/
def cacheable : Bool :=
  decide (request.method = .get) && cacheablePaths.contains request.normalizedPath &&
    !request.query.any fun pair => pair.1 == "callback"

/-- The cache key; `digest` hashes the path and the parameters. -/
def cacheKey (digest : String → List (String × String) → String) : Option String :=
  if request.cacheable then
    some ("amap:search:" ++ digest request.normalizedPath request.stableParams)
  else none

def upstream (jscode : String) : UpstreamRequest where
  method := request.method
  url := "https://restapi.amap.com/" ++ request.normalizedPath
  params := assign "jscode" jscode (queryDict request.query)
  content := request.body

/-- The values of a name, in the order of the query. -/
def values (name : String) : List String :=
  (request.query.filter fun pair => pair.1 = name).map Prod.snd

/-- A name has several different values. -/
def Ambiguous (name : String) : Prop := ∃ a ∈ request.values name, ∃ b ∈ request.values name, a ≠ b

end ProxyRequest

/-- Two requests are equal up to their credentials. -/
def UpstreamRequest.SameOpenly (sent other : UpstreamRequest) : Prop :=
  sent.method = other.method ∧ sent.url = other.url ∧ sent.content = other.content ∧
    ∀ name, name ∉ credentialParams → sent.params.lookup name = other.params.lookup name

section
variable {query : List (String × String)} {name jscode : String}
  {request other : ProxyRequest}

/-- The dictionary has the last value of each name. -/
theorem lookup_queryDict : (queryDict query).lookup name =
    ((query.filter fun pair => pair.1 = name).map Prod.snd).getLast? := by
  induction query using List.reverseRecOn with
  | nil => rfl
  | append_singleton earlier pair ih =>
      have last : queryDict (earlier ++ [pair]) = assign pair.1 pair.2 (queryDict earlier) := by
        rw [queryDict, List.foldl_append]
        rfl
      rw [last, lookup_assign, ih, List.filter_append, List.map_append]
      by_cases same : name = pair.1
      · simp [same]
      · have others : [pair].filter (fun pair => decide (pair.1 = name)) = [] := by
          simp [Ne.symm same]
        rw [if_neg same, others, List.map_nil, List.append_nil]

theorem lookup_upstream (secret : name ∉ credentialParams) :
    (request.upstream jscode).params.lookup name = (request.values name).getLast? := by
  have different : name ≠ "jscode" := by
    rintro rfl
    exact secret (by decide)
  rw [ProxyRequest.upstream, lookup_assign, if_neg different, lookup_queryDict]
  rfl

/-- Equal sorted parameters have the same values for each name, in some order. -/
theorem values_perm (same : request.stableParams = other.stableParams)
    (secret : name ∉ credentialParams) : (request.values name).Perm (other.values name) := by
  have sorted : request.openParams.Perm other.openParams :=
    (List.perm_insertionSort PairLe request.openParams).symm.trans
      ((List.Perm.of_eq same).trans (List.perm_insertionSort PairLe other.openParams))
  have named (r : ProxyRequest) : r.openParams.filter (fun pair => pair.1 = name) =
      r.query.filter fun pair => pair.1 = name := by
    rw [ProxyRequest.openParams, List.filter_filter]
    refine List.filter_congr fun pair _ => ?_
    by_cases here : pair.1 = name
    · simp [here, secret]
    · simp [here]
  have kept := (sorted.filter fun pair => decide (pair.1 = name)).map Prod.snd
  rw [named, named] at kept
  exact kept

/-- A name with one value has the same last value in any order. -/
theorem getLast_of_perm {l m : List String} (perm : l.Perm m)
    (single : ∀ a ∈ l, ∀ b ∈ l, a = b) : l.getLast? = m.getLast? := by
  cases first : l.getLast? with
  | none =>
      rw [List.getLast?_eq_none_iff.mp first] at perm
      rw [List.nil_perm.mp perm]
      rfl
  | some a =>
      cases second : m.getLast? with
      | none =>
          rw [List.getLast?_eq_none_iff.mp second] at perm
          rw [List.perm_nil.mp perm] at first
          contradiction
      | some b =>
          rw [single a (List.mem_of_getLast? first) b
            (perm.mem_iff.mpr (List.mem_of_getLast? second))]

end

/-- Of two requests with one cache key, without a collision of their digests, the same is sent
upstream up to credentials exactly if their bodies are equal and each name that has several values
ends with the same one. -/
theorem proxy_cache_sound_iff (digest : String → List (String × String) → String) (jscode : String)
    (request other : ProxyRequest) (key : String) (hit : request.cacheKey digest = some key)
    (same : other.cacheKey digest = some key)
    (collisionFree : digest request.normalizedPath request.stableParams =
      digest other.normalizedPath other.stableParams →
      request.normalizedPath = other.normalizedPath ∧
        request.stableParams = other.stableParams) :
    (request.upstream jscode).SameOpenly (other.upstream jscode) ↔
      request.body = other.body ∧ ∀ name, name ∉ credentialParams → request.Ambiguous name →
        (request.values name).getLast? = (other.values name).getLast? := by
  unfold ProxyRequest.cacheKey at hit same
  split at hit
  case isFalse => contradiction
  rename_i cached
  split at same
  case isFalse => contradiction
  rename_i served
  have digests := Option.some.inj (hit.trans same.symm)
  obtain ⟨path, params⟩ := collisionFree (String.append_right_inj _ |>.mp digests)
  have method : request.method = other.method := by
    simp only [ProxyRequest.cacheable, Bool.and_eq_true, decide_eq_true_eq] at cached served
    rw [cached.1.1, served.1.1]
  constructor
  · rintro ⟨-, -, content, sent⟩
    refine ⟨content, fun name secret _ => ?_⟩
    have looked := sent name secret
    rwa [lookup_upstream secret, lookup_upstream secret] at looked
  · rintro ⟨content, last⟩
    have url := congrArg ("https://restapi.amap.com/" ++ ·) path
    refine ⟨method, url, content, fun name secret => ?_⟩
    rw [lookup_upstream secret, lookup_upstream secret]
    by_cases several : request.Ambiguous name
    · exact last name secret several
    · refine getLast_of_perm (values_perm params secret) fun a first b second => ?_
      by_contra different
      exact several ⟨a, first, b, second, different⟩

/-- A search for places by some keywords. -/
def placeSearch (query : List (String × String)) : ProxyRequest where
  method := .get
  restPath := "v3/place/text/"
  query := query

def joinedDigest (path : String) (params : List (String × String)) : String :=
  path ++ "|".intercalate (params.map fun pair => pair.1 ++ "=" ++ pair.2)

/-- The order of different parameters does not matter. -/
theorem proxy_cache_sound_iff_reordered :
    ((placeSearch [("keywords", "museum"), ("city", "x"), ("key", "1")]).upstream "j").SameOpenly
      ((placeSearch [("key", "2"), ("city", "x"), ("keywords", "museum")]).upstream "j") := by
  refine (proxy_cache_sound_iff joinedDigest "j" _ _
    ("amap:search:" ++ joinedDigest "v3/place/text" [("city", "x"), ("keywords", "museum")])
    (by decide +kernel) (by decide +kernel) fun _ => by decide +kernel).mpr ⟨rfl, ?_⟩
  rintro name secret ⟨a, first, b, second, different⟩
  simp only [ProxyRequest.values, placeSearch, List.mem_map, List.mem_filter] at first second
  obtain ⟨pair, ⟨member, named⟩, rfl⟩ := first
  obtain ⟨mate, ⟨inside, same⟩, rfl⟩ := second
  obtain rfl := of_decide_eq_true named
  have one : ∀ p ∈ [("keywords", "museum"), ("city", "x"), ("key", "1")],
      ∀ q ∈ [("keywords", "museum"), ("city", "x"), ("key", "1")], q.1 = p.1 → p.2 = q.2 := by
    decide
  exact absurd (one pair member mate inside (of_decide_eq_true same)) different

/-- The order of the values of one parameter does, but not to the cache key. -/
theorem proxy_cache_unsound : ∃ request other : ProxyRequest,
    (∀ digest, request.cacheKey digest = other.cacheKey digest ∧
      (request.cacheKey digest).isSome = true) ∧
    ¬ (request.upstream "j").SameOpenly (other.upstream "j") := by
  refine ⟨placeSearch [("keywords", "museum"), ("keywords", "park")],
    placeSearch [("keywords", "park"), ("keywords", "museum")], fun digest => ?_, ?_⟩
  · have same : (placeSearch [("keywords", "museum"), ("keywords", "park")]).stableParams =
        (placeSearch [("keywords", "park"), ("keywords", "museum")]).stableParams := by
      decide +kernel
    have cached : (placeSearch [("keywords", "museum"), ("keywords", "park")]).cacheable = true ∧
        (placeSearch [("keywords", "park"), ("keywords", "museum")]).cacheable = true := by
      decide +kernel
    rw [ProxyRequest.cacheKey, ProxyRequest.cacheKey, if_pos cached.1, if_pos cached.2, same]
    exact ⟨rfl, rfl⟩
  · rintro ⟨-, -, -, sent⟩
    exact absurd (sent "keywords" (by decide)) (by decide +kernel)

end MapGo.Server
