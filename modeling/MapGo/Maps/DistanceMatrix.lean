import MapGo.Planning.CriticCall
import MapGo.Route.Schema

/-! The matrix of distances from the map service. Every destination has an answer of its own, whose
rows name their origins; a row that cannot be read leaves the estimated edge. -/
namespace MapGo.Maps

open MapGo.Planning (Raised fieldOf valueOf intOf floatLimit)
open MapGo.Route (TransportMode)

/-- A Python float, finite ones as rational numbers. -/
inductive FloatValue where
  | finite (value : ℚ)
  | infinity (negative : Bool)
  | nan
  deriving DecidableEq

/-- Groups of digits with single underscores between them, or none. -/
def digitPart (text : List Char) : Option (List Char) :=
  if text = [] ∨ (text.splitOn '_').all fun group => !group.isEmpty && group.all Char.isDigit then
    some (text.filter (· ≠ '_'))
  else none

/-- A sign and the rest. -/
def signed : List Char → Bool × List Char
  | '-' :: rest => (true, rest)
  | '+' :: rest => (false, rest)
  | rest => (false, rest)

/-- The exponent behind a mantissa, with its letter. -/
def exponentPart : List Char → Option Int
  | [] => some 0
  | _ :: rest =>
      (digitPart (signed rest).2).bind fun digits =>
        if digits = [] then none
        else some ((if (signed rest).1 then -1 else 1) * Nat.ofDigitChars 10 digits 0)

/-- A decimal number without sign. -/
def decimal (text : List Char) : Option ℚ := do
  let mantissa := text.takeWhile fun c => c ≠ 'e' ∧ c ≠ 'E'
  let whole ← digitPart (mantissa.takeWhile (· ≠ '.'))
  let fraction ← digitPart (mantissa.dropWhile (· ≠ '.')).tail
  let exponent ← exponentPart (text.dropWhile fun c => c ≠ 'e' ∧ c ≠ 'E')
  if whole ++ fraction = [] then none
  else
    some (Nat.ofDigitChars 10 (whole ++ fraction) 0 * (10 : ℚ) ^ (exponent - fraction.length))

/-- `float(text)` -/
def floatText (text : String) : Option FloatValue :=
  let (negative, body) := signed (Text.stripped text.toList)
  let word := String.ofList (body.map Char.toLower)
  if word = "inf" ∨ word = "infinity" then some (.infinity negative)
  else if word = "nan" then some .nan
  else (decimal body).map fun value =>
    if (floatLimit : ℚ) ≤ value then .infinity negative
    else .finite (if negative then -value else value)

/-- `float(value)` -/
def floatOf : Loaded → Except Raised FloatValue
  | .bool value => .ok (.finite value.toNat)
  | .int value => if value.natAbs < floatLimit then .ok (.finite value) else .error .overflowError
  | .float value => .ok (.finite value)
  | .infinity negative => .ok (.infinity negative)
  | .nan => .ok .nan
  | .str text => (floatText text).elim (.error .valueError) .ok
  | .null | .list _ | .dict _ => .error .typeError

inductive DataQuality where
  | realtime | provider | cached | estimated
  deriving DecidableEq

structure RouteEdge where
  originIndex : Nat
  destinationIndex : Nat
  durationSeconds : FloatValue
  distanceMeters : FloatValue
  source : String
  quality : DataQuality
  trafficTimestamp : Option Int
  confidence : ℚ
  fallbackUsed : Bool
  deriving DecidableEq

/-- The rows of a matrix. -/
abbrev Edges := List (List RouteEdge)

/-- `items[index]` of a list of this length counts negative indices from its end. -/
def position (length : Nat) (index : Int) : Option Nat :=
  if 0 ≤ index then (if index.toNat < length then some index.toNat else none)
  else if -(length : Int) ≤ index then some (length + index).toNat
  else none

def cell (edges : Edges) (i j : Nat) : Option RouteEdge := (edges[i]?).bind (·[j]?)

/-- `edges[i][j] = edge` -/
def setCell (edges : Edges) (i j : Nat) (edge : RouteEdge) : Edges :=
  edges.modify i fun row => row.set j edge

/-- The `results` of an answer. -/
inductive Results where
  | missing
  | null
  | rows (rows : List Loaded)

/-- What became of a request: an exception, or a body of status 1. -/
inductive Outcome where
  | failed
  | body (results : Results)

/-- What a matrix depends on besides the answers. -/
structure AMapProvider (Point : Type) where
  /-- `haversine_meters` -/
  haversine : Point → Point → ℚ≥0
  /-- Whether NaN meets a bound `ge=0` of a schema. -/
  nanMeetsBound : Bool
  now : Int

namespace AMapProvider
variable {Point : Type} (provider : AMapProvider Point) (mode : TransportMode)

/-- Field checks of `RouteEdge`. -/
def meetsBound : FloatValue → Bool
  | .finite value => 0 ≤ value
  | .infinity negative => !negative
  | .nan => provider.nanMeetsBound

def speed : TransportMode → ℚ
  | .walking => 6 / 5
  | .cycling => 4
  | .driving => 83 / 10
  | .transit => 6

/-- An edge of `MockMapProvider.route_matrix`. -/
def estimate (i j : Nat) (source target : Point) : RouteEdge :=
  let factor : ℚ := if i = j then 0 else if mode = .walking then 61 / 50 else 27 / 20
  let distance := provider.haversine source target * factor
  { originIndex := i
    destinationIndex := j
    distanceMeters := .finite distance
    durationSeconds := .finite (distance / speed mode)
    source := "haversine_estimate"
    quality := .estimated
    trafficTimestamp := none
    confidence := if i = j then 1 else 9 / 20
    fallbackUsed := decide (i ≠ j) }

def fallback (points : List Point) : Edges :=
  points.mapIdx fun i source => points.mapIdx fun j target => provider.estimate mode i j source target

/-- The edge of a row with its numbers. -/
def measured (i j : Nat) (distance duration : FloatValue) (estimated : Bool) : RouteEdge where
  originIndex := i
  destinationIndex := j
  distanceMeters := distance
  durationSeconds := duration
  source := "amap_distance_v3"
  quality := if estimated then .estimated else .provider
  trafficTimestamp := if mode = .driving then some provider.now else none
  confidence := if estimated then 7 / 10 else 9 / 10
  fallbackUsed := estimated

/-- `edges[i][j].duration_seconds` -/
def heldDuration (edges : Edges) (originIndex : Int) (j : Nat) : Except Raised FloatValue :=
  match (position edges.length originIndex).bind fun i => cell edges i j with
  | none => .error .indexError
  | some edge => .ok edge.durationSeconds

/-- The numbers of a row as they are converted: the origin counted from zero, the distance, and the
duration if there is one. -/
def numbers (row : Loaded) : Except Raised (Int × FloatValue × Option FloatValue) := do
  let originIndex := (← intOf (← fieldOf "origin_id" row)) - 1
  let distance ← floatOf (← fieldOf "distance" row)
  let durationRaw ← valueOf "duration" row
  if durationRaw.truthy then
    let duration ← floatOf durationRaw
    .ok (originIndex, distance, some duration)
  else .ok (originIndex, distance, none)

/-- The body of the `try` for a row. -/
def writeRow (j : Nat) (row : Loaded) (edges : Edges) : Except Raised Edges := do
  let (originIndex, distance, given) ← numbers row
  let duration ← given.elim (heldDuration edges originIndex j) .ok
  if originIndex < 0 ∨ ¬ provider.meetsBound distance ∨ ¬ provider.meetsBound duration then
    .error .valueError
  else match position edges.length originIndex with
    | none => .error .indexError
    | some i => .ok (setCell edges i j
        (provider.measured mode originIndex.toNat j distance duration given.isNone))

/-- The exceptions that skip a row. -/
def skips : Raised → Bool
  | .keyError | .valueError | .typeError | .indexError => true
  | _ => false

def readRows (j : Nat) : List Loaded → Edges → Except Raised Edges
  | [], edges => .ok edges
  | row :: rest, edges =>
      match provider.writeRow mode j row edges with
      | .ok edges => readRows j rest edges
      | .error raised => if skips raised then readRows j rest edges else .error raised

/-- The answer for a destination; null is no iterable. -/
def readAnswer (j : Nat) (outcome : Outcome) (edges : Edges) : Except Raised Edges :=
  match outcome with
  | .failed | .body .missing => .ok edges
  | .body .null => .error .typeError
  | .body (.rows rows) => provider.readRows mode j rows edges

/-- The loop over the answers, from a destination on. -/
def readAnswers : Nat → List Outcome → Edges → Except Raised Edges
  | _, [], edges => .ok edges
  | j, outcome :: rest, edges => do
      let edges ← provider.readAnswer mode j outcome edges
      readAnswers (j + 1) rest edges

/-- `route_matrix` of points with the outcomes of the requests to them. -/
def routeMatrix (calls : List (Point × Outcome)) : Except Raised Edges :=
  provider.readAnswers mode 0 (calls.map Prod.snd) (provider.fallback mode (calls.map Prod.fst))

/-! ### Rows by themselves -/

/-- The numbers of a row that is accepted, its duration if it has one. -/
structure Reading where
  origin : Nat
  distance : FloatValue
  duration : Option FloatValue

inductive RowReading where
  | accepted (reading : Reading)
  | skipped
  /-- A number of the row raises an exception that is not caught. -/
  | raises

/-- What a row is to a matrix of some points. -/
def readRow (points : Nat) (row : Loaded) : RowReading :=
  match numbers row with
  | .error raised => if skips raised then .skipped else .raises
  | .ok (originIndex, distance, duration) =>
      if 0 ≤ originIndex ∧ originIndex < points ∧ provider.meetsBound distance ∧
          duration.all provider.meetsBound then
        .accepted ⟨originIndex.toNat, distance, duration⟩
      else .skipped

/-- An accepted row measures its edge; without a duration of its own it keeps the one that is
there. -/
def Reading.write (reading : Reading) (j : Nat) (edge : RouteEdge) : RouteEdge :=
  provider.measured mode reading.origin j reading.distance
    (reading.duration.getD edge.durationSeconds) reading.duration.isNone

/-- The accepted rows of an origin. -/
def accepted (points i : Nat) (rows : List Loaded) : List Reading :=
  rows.filterMap fun row =>
    match provider.readRow points row with
    | .accepted reading => if reading.origin = i then some reading else none
    | _ => none

end AMapProvider

def Outcome.rows : Outcome → List Loaded
  | .body (.rows rows) => rows
  | _ => []

def FloatValue.isFinite : FloatValue → Bool
  | .finite _ => true
  | _ => false

/-- A finite value that is not negative. -/
def FloatValue.Measured (value : FloatValue) : Prop := ∃ q, value = .finite q ∧ 0 ≤ q

namespace AMapProvider
variable {Point : Type}

/-- An edge after the accepted rows of its origin in the answer of its destination. -/
def afterRows (provider : AMapProvider Point) (mode : TransportMode) (points i j : Nat)
    (rows : List Loaded) (edge : RouteEdge) : RouteEdge :=
  (provider.accepted points i rows).foldl (fun edge reading => reading.write provider mode j edge)
    edge

/-- The results are no null and none of their rows raises. -/
def Readable (provider : AMapProvider Point) (points : Nat) : Outcome → Prop
  | .body .null => False
  | outcome => ∀ row ∈ outcome.rows, provider.readRow points row ≠ .raises

/-- The last accepted row of an origin has a finite distance, and the last one with a duration a
finite duration. -/
def Settled (provider : AMapProvider Point) (points i : Nat) (outcome : Outcome) : Prop :=
  (∀ last, (provider.accepted points i outcome.rows).getLast? = some last →
    last.distance.isFinite = true) ∧
  ∀ last, ((provider.accepted points i outcome.rows).filterMap Reading.duration).getLast? =
    some last → last.isFinite = true

/-- A square matrix of edges with their indices and finite numbers, each the estimated edge after
the accepted rows of its own origin and destination. -/
structure Assembled (provider : AMapProvider Point) (mode : TransportMode)
    (calls : List (Point × Outcome)) (edges : Edges) : Prop where
  size : edges.length = calls.length
  rows : ∀ row ∈ edges, row.length = calls.length
  cells : ∀ i j source target, calls[i]? = some source → calls[j]? = some target →
    ∃ edge, cell edges i j = some edge ∧ edge.originIndex = i ∧ edge.destinationIndex = j ∧
      edge.distanceMeters.Measured ∧ edge.durationSeconds.Measured ∧
      edge = provider.afterRows mode calls.length i j target.2.rows
        (provider.estimate mode i j source.1 target.1)

variable {provider : AMapProvider Point} {mode : TransportMode} {edges : Edges}
  {points i j : Nat} {row : Loaded}

/-- A square matrix whose durations have passed the check of their schema. -/
structure Shaped (provider : AMapProvider Point) (points : Nat) (edges : Edges) : Prop where
  size : edges.length = points
  rows : ∀ row ∈ edges, row.length = points
  bounds : ∀ i j edge, cell edges i j = some edge → provider.meetsBound edge.durationSeconds = true

theorem Shaped.cell_isSome (shaped : provider.Shaped points edges) (inside : i < points)
    (below : j < points) : ∃ edge, cell edges i j = some edge := by
  have first : i < edges.length := shaped.size ▸ inside
  have second : j < edges[i].length := (shaped.rows _ (List.getElem_mem first)) ▸ below
  exact ⟨edges[i][j], by simp [cell, first, second]⟩

theorem cell_setCell {a b : Nat} {edge old : RouteEdge} (found : cell edges i j = some old) :
    cell (setCell edges i j edge) a b = if a = i ∧ b = j then some edge else cell edges a b := by
  obtain ⟨row, there, inside⟩ := Option.bind_eq_some_iff.mp found
  obtain ⟨below, -⟩ := List.getElem?_eq_some_iff.mp inside
  rw [cell, setCell, List.getElem?_modify]
  by_cases same : a = i
  · subst same
    rw [there, cell, there]
    by_cases here : b = j
    · subst here
      simp [below]
    · simp [here, Ne.symm here]
  · rw [if_neg fun both => same both.1, cell]
    cases edges[a]? <;> simp [Ne.symm same]

theorem position_of_nonneg {index : Int} (nonneg : 0 ≤ index) (inside : index < points) :
    position points index = some index.toNat := by
  rw [position, if_pos nonneg, if_pos (by omega)]

theorem heldDuration_eq (shaped : provider.Shaped points edges) {index : Int} {edge : RouteEdge}
    (nonneg : 0 ≤ index) (inside : index < points)
    (found : cell edges index.toNat j = some edge) :
    heldDuration edges index j = .ok edge.durationSeconds := by
  simp [heldDuration, shaped.size, position_of_nonneg nonneg inside, found]

theorem heldDuration_error {index : Int} {raised : Raised}
    (failed : heldDuration edges index j = .error raised) : raised = .indexError := by
  unfold heldDuration at failed
  split at failed
  · exact (Except.error.inj failed).symm
  · contradiction

/-- An origin outside the matrix is skipped. -/
theorem writeRow_outside (shaped : provider.Shaped points edges) {index : Int}
    {distance : FloatValue} {given : Option FloatValue}
    (read : numbers row = .ok (index, distance, given)) (outside : index < 0 ∨ points ≤ index) :
    ∃ raised, provider.writeRow mode j row edges = .error raised ∧ skips raised = true := by
  unfold writeRow
  simp only [read, bind, Except.bind]
  cases taken : given.elim (heldDuration edges index j) Except.ok with
  | error raised =>
      cases given with
      | none => exact ⟨raised, rfl, heldDuration_error taken ▸ rfl⟩
      | some duration => contradiction
  | ok duration =>
      dsimp only
      split
      · exact ⟨.valueError, rfl, rfl⟩
      · rename_i passed
        have beyond : position edges.length index = none := by
          have nonneg : 0 ≤ index := not_lt.mp fun negative => passed (.inl negative)
          rw [position, if_pos nonneg, if_neg]
          rw [shaped.size]
          omega
        rw [beyond]
        exact ⟨.indexError, rfl, rfl⟩

/-- A row in a square matrix is skipped, raises, or writes one cell. -/
theorem writeRow_cases (shaped : provider.Shaped points edges) (below : j < points) :
    (provider.readRow points row = .raises ∧
      ∃ raised, provider.writeRow mode j row edges = .error raised ∧ skips raised = false) ∨
    (provider.readRow points row = .skipped ∧
      ∃ raised, provider.writeRow mode j row edges = .error raised ∧ skips raised = true) ∨
    ∃ reading edge, provider.readRow points row = .accepted reading ∧
      reading.origin < points ∧ cell edges reading.origin j = some edge ∧
      provider.meetsBound (reading.duration.getD edge.durationSeconds) = true ∧
      provider.writeRow mode j row edges =
        .ok (setCell edges reading.origin j (reading.write provider mode j edge)) := by
  cases read : numbers row with
  | error raised =>
      have written : provider.writeRow mode j row edges = .error raised := by
        simp [writeRow, read, bind, Except.bind]
      cases skipped : skips raised with
      | true => exact .inr (.inl ⟨by simp [readRow, read, skipped], raised, written, skipped⟩)
      | false => exact .inl ⟨by simp [readRow, read, skipped], raised, written, skipped⟩
  | ok numbers =>
      obtain ⟨index, distance, given⟩ := numbers
      by_cases inside : 0 ≤ index ∧ index < points
      · obtain ⟨nonneg, small⟩ := inside
        obtain ⟨edge, found⟩ := shaped.cell_isSome (i := index.toNat) (by omega) below
        have place : position edges.length index = some index.toNat :=
          shaped.size ▸ position_of_nonneg nonneg small
        have held := heldDuration_eq shaped nonneg small found
        have bound := shaped.bounds _ _ edge found
        have duration : given.elim (heldDuration edges index j) Except.ok =
            .ok (given.getD edge.durationSeconds) := by
          cases given with
          | none => exact held
          | some duration => rfl
        have meets : given.all provider.meetsBound =
            provider.meetsBound (given.getD edge.durationSeconds) := by
          cases given with
          | none => exact bound.symm
          | some duration => rfl
        by_cases accepted : provider.meetsBound distance = true ∧
            provider.meetsBound (given.getD edge.durationSeconds) = true
        · refine .inr (.inr ⟨⟨index.toNat, distance, given⟩, edge, ?_, ?_, found, accepted.2, ?_⟩)
          · simp [readRow, read, nonneg, small, meets, accepted.1, accepted.2]
          · change index.toNat < points
            omega
          · simp [writeRow, read, bind, Except.bind, duration, place, not_lt.mpr nonneg,
              accepted.1, accepted.2, Reading.write]
        · refine .inr (.inl ⟨?_, .valueError, ?_, rfl⟩)
          · simp only [readRow, read, meets]
            rw [if_neg fun all => accepted ⟨all.2.2.1, all.2.2.2⟩]
          · simp only [writeRow, read, bind, Except.bind, duration]
            rw [if_pos]
            by_contra none
            rw [not_or, not_or, not_not, not_not] at none
            exact accepted none.2
      · have outside : index < 0 ∨ (points : Int) ≤ index := by omega
        refine .inr (.inl ⟨?_, writeRow_outside shaped read outside⟩)
        simp only [readRow, read]
        rw [if_neg fun all => inside ⟨all.1, all.2.1⟩]

theorem Shaped.setCell (shaped : provider.Shaped points edges) {edge old : RouteEdge}
    (found : cell edges i j = some old) (bound : provider.meetsBound edge.durationSeconds = true) :
    provider.Shaped points (setCell edges i j edge) := by
  refine ⟨(List.length_modify ..).trans shaped.size, fun row member => ?_, fun a b other => ?_⟩
  · obtain ⟨k, there⟩ := List.mem_iff_getElem?.mp member
    rw [Maps.setCell, List.getElem?_modify] at there
    obtain ⟨before, old, rfl⟩ := Option.map_eq_some_iff.mp there
    have length := shaped.rows before (List.mem_of_getElem? old)
    split
    · rw [List.length_set, length]
    · exact length
  · rw [cell_setCell found]
    split
    · intro same
      exact Option.some.inj same ▸ bound
    · exact shaped.bounds a b other

theorem accepted_cons {rows : List Loaded} : provider.accepted points i (row :: rows) =
    (provider.accepted points i [row]) ++ provider.accepted points i rows :=
  List.filterMap_append (l := [row])

theorem accepted_of_skipped (skipped : provider.readRow points row = .skipped) :
    provider.accepted points i [row] = [] := by
  simp [accepted, skipped]

theorem accepted_of_accepted {reading : Reading}
    (read : provider.readRow points row = .accepted reading) :
    provider.accepted points i [row] = if reading.origin = i then [reading] else [] := by
  by_cases same : reading.origin = i <;> simp [accepted, read, same]

/-- The rows of an answer are read unless one raises, and change their own cells alone. -/
theorem readRows_spec (mode : TransportMode) (shaped : provider.Shaped points edges) (below : j < points)
    (rows : List Loaded) :
    ((∃ next, provider.readRows mode j rows edges = .ok next) ↔
      ∀ row ∈ rows, provider.readRow points row ≠ .raises) ∧
    ∀ next, provider.readRows mode j rows edges = .ok next → provider.Shaped points next ∧
      ∀ a b, cell next a b =
        if b = j then (cell edges a b).map (provider.afterRows mode points a j rows)
        else cell edges a b := by
  induction rows generalizing edges with
  | nil =>
      refine ⟨iff_of_true ⟨edges, rfl⟩ (by simp), fun next same => ?_⟩
      obtain rfl := Except.ok.inj same
      refine ⟨shaped, fun a b => ?_⟩
      have same : provider.afterRows mode points a j [] = id := rfl
      rw [same, Option.map_id, id, ite_self]
  | cons row rest ih =>
      rw [readRows, List.forall_mem_cons]
      obtain ⟨read, raised, written, uncaught⟩ | ⟨read, raised, written, caught⟩ |
        ⟨reading, edge, read, inside, found, bound, written⟩ := writeRow_cases shaped below
      · rw [written]
        simp only [uncaught, read]
        simp
      · rw [written]
        simp only [caught, if_true]
        obtain ⟨total, spec⟩ := ih shaped
        refine ⟨total.trans (by simp [read]), fun next same => ?_⟩
        obtain ⟨kept, cells⟩ := spec next same
        refine ⟨kept, fun a b => ?_⟩
        rw [cells a b]
        unfold afterRows
        rw [accepted_cons, accepted_of_skipped read, List.nil_append]
      · rw [written]
        dsimp only
        have moved : provider.Shaped points
            (Maps.setCell edges reading.origin j (reading.write provider mode j edge)) :=
          shaped.setCell found bound
        obtain ⟨total, spec⟩ := ih moved
        refine ⟨total.trans (by simp [read]), fun next same => ?_⟩
        obtain ⟨kept, cells⟩ := spec next same
        refine ⟨kept, fun a b => ?_⟩
        rw [cells a b, cell_setCell found]
        unfold afterRows
        rw [accepted_cons, accepted_of_accepted read]
        by_cases here : b = j
        · subst here
          by_cases own : a = reading.origin
          · subst own
            simp [found]
          · simp [own, Ne.symm own]
        · simp [here]

/-- An answer changes the column of its destination alone. -/
theorem readAnswer_spec (mode : TransportMode) (shaped : provider.Shaped points edges) (below : j < points)
    (outcome : Outcome) :
    ((∃ next, provider.readAnswer mode j outcome edges = .ok next) ↔
      provider.Readable points outcome) ∧
    ∀ next, provider.readAnswer mode j outcome edges = .ok next → provider.Shaped points next ∧
      ∀ a b, cell next a b =
        if b = j then (cell edges a b).map (provider.afterRows mode points a j outcome.rows)
        else cell edges a b := by
  have unread := readRows_spec mode shaped below []
  cases outcome with
  | failed => exact unread
  | body results =>
      cases results with
      | missing => exact unread
      | null => exact ⟨iff_of_false (fun ⟨_, failed⟩ => by cases failed) id, fun _ same => by cases same⟩
      | rows rows => exact readRows_spec mode shaped below rows

/-- The answers from a destination on change their columns. -/
theorem readAnswers_spec (mode : TransportMode) {outcomes : List Outcome}
    (shaped : provider.Shaped points edges) (fits : j + outcomes.length ≤ points) :
    ((∃ next, provider.readAnswers mode j outcomes edges = .ok next) ↔
      ∀ outcome ∈ outcomes, provider.Readable points outcome) ∧
    ∀ next, provider.readAnswers mode j outcomes edges = .ok next → provider.Shaped points next ∧
      (∀ a b, b < j → cell next a b = cell edges a b) ∧
      ∀ a k outcome, outcomes[k]? = some outcome → cell next a (j + k) =
        (cell edges a (j + k)).map (provider.afterRows mode points a (j + k) outcome.rows) := by
  induction outcomes generalizing j edges with
  | nil =>
      refine ⟨iff_of_true ⟨edges, rfl⟩ (by simp), fun next same => ?_⟩
      obtain rfl := Except.ok.inj same
      exact ⟨shaped, fun _ _ _ => rfl, by simp⟩
  | cons outcome rest ih =>
      rw [List.length_cons] at fits
      obtain ⟨total, spec⟩ := readAnswer_spec mode shaped (by omega : j < points) outcome
      rw [List.forall_mem_cons, ← total]
      cases first : provider.readAnswer mode j outcome edges with
      | error raised =>
          have failed : provider.readAnswers mode j (outcome :: rest) edges = .error raised := by
            simp [readAnswers, first, bind, Except.bind]
          rw [failed]
          simp
      | ok middle =>
          have onward : provider.readAnswers mode j (outcome :: rest) edges =
              provider.readAnswers mode (j + 1) rest middle := by
            simp [readAnswers, first, bind, Except.bind]
          obtain ⟨kept, cells⟩ := spec middle first
          obtain ⟨others, later⟩ := ih kept (by omega : j + 1 + rest.length ≤ points)
          rw [onward]
          refine ⟨others.trans (by simp), fun next same => ?_⟩
          obtain ⟨shape, before, columns⟩ := later next same
          refine ⟨shape, fun a b small => ?_, fun a k found there => ?_⟩
          · rw [before a b (by omega), cells a b, if_neg (by omega)]
          · cases k with
            | zero =>
                obtain rfl := Option.some.inj there
                rw [Nat.add_zero, before a j (by omega), cells a j, if_pos rfl]
            | succ k =>
                have column := columns a k found there
                rw [cells a (j + 1 + k), if_neg (by omega)] at column
                rwa [Nat.add_assoc, Nat.add_comm 1 k] at column

theorem cell_fallback {sources : List Point} {source target : Point}
    (first : sources[i]? = some source) (second : sources[j]? = some target) :
    cell (provider.fallback mode sources) i j = some (provider.estimate mode i j source target) := by
  simp [cell, fallback, first, second]

theorem estimate_measured (provider : AMapProvider Point) (mode : TransportMode) (i j : Nat) (source target : Point) :
    (provider.estimate mode i j source target).distanceMeters.Measured ∧
      (provider.estimate mode i j source target).durationSeconds.Measured := by
  have far : (0 : ℚ) ≤ provider.haversine source target *
      (if i = j then 0 else if mode = .walking then 61 / 50 else 27 / 20) := by
    refine mul_nonneg (NNRat.coe_nonneg _) ?_
    split
    · exact le_rfl
    · split <;> norm_num
  have quick : 0 < speed mode := by cases mode <;> norm_num [speed]
  exact ⟨⟨_, rfl, far⟩, ⟨_, rfl, div_nonneg far quick.le⟩⟩

theorem shaped_fallback (provider : AMapProvider Point) (mode : TransportMode) (sources : List Point) :
    provider.Shaped sources.length (provider.fallback mode sources) := by
  refine ⟨List.length_mapIdx, fun row member => ?_, fun a b edge found => ?_⟩
  · obtain ⟨k, there⟩ := List.mem_iff_getElem?.mp member
    rw [fallback, List.getElem?_mapIdx] at there
    obtain ⟨source, -, rfl⟩ := Option.map_eq_some_iff.mp there
    exact List.length_mapIdx
  · rw [cell, fallback, List.getElem?_mapIdx] at found
    obtain ⟨row, there, inside⟩ := Option.bind_eq_some_iff.mp found
    obtain ⟨source, -, rfl⟩ := Option.map_eq_some_iff.mp there
    rw [List.getElem?_mapIdx] at inside
    obtain ⟨target, -, rfl⟩ := Option.map_eq_some_iff.mp inside
    obtain ⟨duration, same, nonneg⟩ := (estimate_measured provider mode a b source target).2
    rw [same]
    exact decide_eq_true nonneg

theorem mem_accepted {rows : List Loaded} {reading : Reading}
    (member : reading ∈ provider.accepted points i rows) : reading.origin = i ∧
      provider.meetsBound reading.distance = true ∧
      ∀ duration, reading.duration = some duration → provider.meetsBound duration = true := by
  obtain ⟨row, -, taken⟩ := List.mem_filterMap.mp member
  cases read : provider.readRow points row with
  | skipped => simp [read] at taken
  | raises => simp [read] at taken
  | accepted found =>
      simp only [read, Option.ite_none_right_eq_some, Option.some.injEq] at taken
      obtain ⟨own, rfl⟩ := taken
      refine ⟨own, ?_⟩
      unfold readRow at read
      split at read
      · split at read <;> contradiction
      · rename_i index distance given numbers
        split at read
        · rename_i passed
          obtain rfl := RowReading.accepted.inj read
          obtain ⟨-, -, far, lasting⟩ := passed
          refine ⟨far, fun duration same => ?_⟩
          change given = some duration at same
          rw [same] at lasting
          exact lasting
        · contradiction

section
variable {readings : List Reading} {edge : RouteEdge}

/-- The indices stay those of the edge. -/
theorem foldl_write_indices (provider : AMapProvider Point) (mode : TransportMode)
    (edge : RouteEdge) (own : ∀ reading ∈ readings, reading.origin = edge.originIndex)
    (column : edge.destinationIndex = j) :
    (readings.foldl (fun edge reading => reading.write provider mode j edge) edge).originIndex =
        edge.originIndex ∧
      (readings.foldl (fun edge reading => reading.write provider mode j edge)
        edge).destinationIndex = j := by
  induction readings using List.reverseRecOn with
  | nil => exact ⟨rfl, column⟩
  | append_singleton rest last ih =>
      rw [List.foldl_append]
      exact ⟨own last (List.mem_append_right _ (List.mem_singleton_self last)), rfl⟩

/-- The distance is that of the last row. -/
theorem foldl_write_distance :
    (readings.foldl (fun edge reading => reading.write provider mode j edge) edge).distanceMeters =
      readings.getLast?.elim edge.distanceMeters Reading.distance := by
  induction readings using List.reverseRecOn with
  | nil => rfl
  | append_singleton rest last ih =>
      rw [List.foldl_append, List.getLast?_append_of_ne_nil _ (List.cons_ne_nil _ _)]
      rfl

/-- The duration is the last one that a row has. -/
theorem foldl_write_duration :
    (readings.foldl (fun edge reading => reading.write provider mode j edge)
        edge).durationSeconds =
      ((readings.filterMap Reading.duration).getLast?).getD edge.durationSeconds := by
  induction readings using List.reverseRecOn with
  | nil => rfl
  | append_singleton rest last ih =>
      rw [List.foldl_append, List.filterMap_append]
      change last.duration.getD _ = _
      rw [ih]
      cases given : last.duration <;> simp [given]

end

theorem measured_iff {value : FloatValue} (bound : provider.meetsBound value = true) :
    value.Measured ↔ value.isFinite = true := by
  cases value with
  | finite q =>
      exact iff_of_true ⟨q, rfl, of_decide_eq_true bound⟩ rfl
  | infinity negative => exact iff_of_false (fun ⟨_, same, _⟩ => by cases same) Bool.false_ne_true
  | nan => exact iff_of_false (fun ⟨_, same, _⟩ => by cases same) Bool.false_ne_true

/-- An edge is measured after the rows of its origin exactly if these are settled. -/
theorem afterRows_measured_iff (mode : TransportMode) (j : Nat) {edge : RouteEdge} {outcome : Outcome}
    (far : edge.distanceMeters.Measured) (lasting : edge.durationSeconds.Measured) :
    ((provider.afterRows mode points i j outcome.rows edge).distanceMeters.Measured ∧
      (provider.afterRows mode points i j outcome.rows edge).durationSeconds.Measured) ↔
        provider.Settled points i outcome := by
  unfold afterRows Settled
  rw [foldl_write_distance, foldl_write_duration]
  refine and_congr ?_ ?_
  · cases last : (provider.accepted points i outcome.rows).getLast? with
    | none => exact iff_of_true far (by simp)
    | some reading =>
        have bound := (mem_accepted (List.mem_of_getLast? last)).2.1
        simpa using measured_iff bound
  · cases last : ((provider.accepted points i outcome.rows).filterMap
        Reading.duration).getLast? with
    | none => exact iff_of_true lasting (by simp)
    | some duration =>
        obtain ⟨reading, member, given⟩ := List.mem_filterMap.mp (List.mem_of_getLast? last)
        simpa using measured_iff ((mem_accepted member).2.2 duration given)

end AMapProvider

/-- Points in one place. -/
def onePlace : AMapProvider Unit where
  haversine _ _ := 0
  nanMeetsBound := true
  now := 0

def answerRow (originId distance duration : String) : Loaded :=
  .dict [("origin_id", .str originId), ("distance", .str distance), ("duration", .str duration)]

-- rows of no origin, without numbers or below zero are skipped
example : onePlace.routeMatrix .walking [((), .body (.rows [answerRow "0" "1" "1",
    answerRow "2" "1" "1", answerRow "one" "1" "1", answerRow "1" "-1" "1", .null,
    answerRow "1" "7.5" "", answerRow "1" "1" "x"]))] =
      .ok [[onePlace.measured .walking 0 0 (.finite (15 / 2)) (.finite 0) true]] := by
  decide +kernel

end MapGo.Maps
