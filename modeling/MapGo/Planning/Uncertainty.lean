import MapGo.Basic
import MapGo.Choice

/-! Confidence envelopes of a duration. The heuristic one widens by what is missing to full
confidence; the calibrated one by the residual that nine tenths of the samples stay within. -/
namespace MapGo.Planning

open MapGo.Choice (atRank atRank_isSome atRank_le_iff atRank_mem)

structure ConfidenceEnvelope where
  expectedSeconds : ℚ
  lowerSeconds : ℚ
  upperSeconds : ℚ
  onTimeProbability : Option ℚ
  method : String
  warnings : List String
  deriving DecidableEq, Repr

def heuristicEnvelope (expectedSeconds meanConfidence : ℚ) (fallbackUsed : Bool)
    (safetyBufferMinutes : Nat) (hasDeadline : Bool) : ConfidenceEnvelope :=
  let confidence := max (1 / 20) (min 1 meanConfidence)
  let spread := expectedSeconds * (1 - confidence) * if fallbackUsed then 27 / 20 else 1
  let buffer := safetyBufferMinutes * 60
  { expectedSeconds := expectedSeconds
    lowerSeconds := max 0 (expectedSeconds - spread)
    upperSeconds := expectedSeconds + spread + buffer
    onTimeProbability := if hasDeadline then some confidence else none
    method := "provider-confidence-safety-envelope-v2"
    warnings := (if fallbackUsed then ["部分路段使用估计距离，置信度已下调"] else []) ++
      if safetyBufferMinutes ≠ 0 then
        ["已叠加不确定约束安全缓冲 " ++ toString safetyBufferMinutes ++ " 分钟"]
      else [] }

/-- An item of the history. -/
structure EtaSample where
  predictedSeconds : ℚ
  actualSeconds : ℚ
  deriving DecidableEq, Repr

def EtaSample.residual (sample : EtaSample) : ℚ := sample.actualSeconds - sample.predictedSeconds

/-- `sorted_abs`, before it is sorted. -/
def absoluteResiduals (history : List EtaSample) : List ℚ :=
  history.map fun sample => |sample.residual|

/-- `min(len(sorted_abs) - 1, int(math.ceil(0.9 * len(sorted_abs)) - 1))` -/
def p90Index (count : Nat) : Nat := min (count - 1) (⌈(9 / 10 : ℚ) * count⌉ - 1).toNat

/-- `none` is an `IndexError`. -/
def p90 (history : List EtaSample) : Option ℚ :=
  atRank (absoluteResiduals history) (p90Index history.length)

/-- The samples whose residual stays within a bound. -/
def covered (history : List EtaSample) (bound : ℚ) : Nat :=
  (history.filter fun sample => |sample.residual| ≤ bound).length

/-- The envelope for a residual bound. -/
def calibrated (expectedSeconds meanConfidence : ℚ) (base : ConfidenceEnvelope)
    (history : List EtaSample) (safetyBufferMinutes : Nat) (hasDeadline : Bool) (p90 : ℚ) :
    ConfidenceEnvelope :=
  let mae := (absoluteResiduals history).sum / history.length
  let coverage : ℚ := covered history p90 / history.length
  { expectedSeconds := expectedSeconds
    lowerSeconds := max 0 (expectedSeconds - p90)
    upperSeconds := expectedSeconds + p90 + safetyBufferMinutes * 60
    onTimeProbability := if hasDeadline then some (min meanConfidence coverage) else none
    method := "historical-residual-calibration-v1"
    warnings := base.warnings ++
      ["基于 " ++ toString history.length ++ " 条历史 ETA 残差校准：MAE=" ++ fixedText 0 mae ++
        "s，P90=" ++ fixedText 0 p90 ++ "s，覆盖率=" ++ fixedText 0 (coverage * 100) ++ "%"] }

def calibrateFromHistory (expectedSeconds meanConfidence : ℚ) (fallbackUsed : Bool)
    (history : List EtaSample) (safetyBufferMinutes : Nat) (hasDeadline : Bool) :
    Option ConfidenceEnvelope :=
  let base :=
    heuristicEnvelope expectedSeconds meanConfidence fallbackUsed safetyBufferMinutes hasDeadline
  if history.length < 8 then some base
  else (p90 history).map
    (calibrated expectedSeconds meanConfidence base history safetyBufferMinutes hasDeadline)

variable {history : List EtaSample} {bound : ℚ} {count within : Nat}

theorem covered_eq (history : List EtaSample) (bound : ℚ) :
    covered history bound = (absoluteResiduals history).countP (· ≤ bound) := by
  rw [covered, absoluteResiduals, List.countP_map, List.countP_eq_length_filter]
  rfl

/-- More than its index lie within the bound where nine tenths of the samples do. -/
theorem p90Index_lt_iff (some : 0 < count) : p90Index count < within ↔
    (9 / 10 : ℚ) * count ≤ within := by
  have whole : (9 / 10 : ℚ) * count ≤ within ↔ ⌈(9 / 10 : ℚ) * count⌉ ≤ (within : Int) := by
    rw [Int.ceil_le]
    norm_cast
  have positive : 0 < ⌈(9 / 10 : ℚ) * count⌉ := by
    rw [Int.ceil_pos]
    positivity
  have share : ⌈(9 / 10 : ℚ) * count⌉ ≤ (count : Int) := by
    rw [Int.ceil_le]
    push_cast
    linarith [(Nat.cast_nonneg count : (0 : ℚ) ≤ count)]
  rw [whole, p90Index]
  omega

theorem p90_isSome (some : history ≠ []) : ∃ bound, p90 history = Option.some bound := by
  refine atRank_isSome ?_
  have positive := List.length_pos_of_ne_nil some
  rw [absoluteResiduals, List.length_map, p90Index]
  omega

/-- The bound is the least value that nine tenths of the samples stay within. -/
theorem p90_le_iff (some : history ≠ []) (chosen : p90 history = Option.some bound) (other : ℚ) :
    bound ≤ other ↔ (9 / 10 : ℚ) * history.length ≤ covered history other := by
  rw [atRank_le_iff chosen, covered_eq]
  exact p90Index_lt_iff (List.length_pos_of_ne_nil some)

/-- From eight samples on, the envelope is that of the least residual covering nine tenths. -/
theorem calibrate_covers (expectedSeconds meanConfidence : ℚ) (fallbackUsed : Bool)
    (history : List EtaSample) (safetyBufferMinutes : Nat) (hasDeadline : Bool)
    (nonneg : 0 ≤ expectedSeconds) (enough : 8 ≤ history.length) :
    ∃ bound envelope, p90 history = some bound ∧
      calibrateFromHistory expectedSeconds meanConfidence fallbackUsed history safetyBufferMinutes
        hasDeadline = some envelope ∧
      (∃ sample ∈ history, bound = |sample.residual|) ∧
      (9 / 10 : ℚ) * history.length ≤ covered history bound ∧
      (∀ sample ∈ history, (9 / 10 : ℚ) * history.length ≤ covered history |sample.residual| →
        bound ≤ |sample.residual|) ∧
      envelope.expectedSeconds = expectedSeconds ∧
      envelope.lowerSeconds = max 0 (expectedSeconds - bound) ∧
      envelope.upperSeconds = expectedSeconds + bound + safetyBufferMinutes * 60 ∧
      envelope.lowerSeconds ≤ envelope.expectedSeconds ∧
      envelope.expectedSeconds ≤ envelope.upperSeconds ∧
      ∀ probability, envelope.onTimeProbability = some probability →
        probability ≤ meanConfidence := by
  have present : history ≠ [] := by
    rintro rfl
    contradiction
  obtain ⟨bound, chosen⟩ := p90_isSome present
  have least := p90_le_iff present chosen
  obtain ⟨sample, member, residual⟩ := List.mem_map.mp (atRank_mem chosen)
  have positive : 0 ≤ bound := residual ▸ abs_nonneg _
  have answered : calibrateFromHistory expectedSeconds meanConfidence fallbackUsed history
      safetyBufferMinutes hasDeadline = some (calibrated expectedSeconds meanConfidence
        (heuristicEnvelope expectedSeconds meanConfidence fallbackUsed safetyBufferMinutes
          hasDeadline) history safetyBufferMinutes hasDeadline bound) := by
    rw [calibrateFromHistory, if_neg (not_lt.mpr enough), chosen]
    rfl
  refine ⟨bound, _, chosen, answered, ⟨sample, member, residual.symm⟩, (least bound).mp le_rfl,
    fun other _ => (least _).mpr, rfl, rfl, rfl, ?_, ?_, ?_⟩
  · exact max_le nonneg (sub_le_self _ positive)
  · have buffer : (0 : ℚ) ≤ safetyBufferMinutes * 60 := by positivity
    show expectedSeconds ≤ expectedSeconds + bound + safetyBufferMinutes * 60
    linarith
  · intro probability reported
    cases hasDeadline with
    | true => exact Option.some.inj reported ▸ min_le_left _ _
    | false => contradiction

/-- Ten trips that took from one to ten minutes longer than predicted. -/
def lateTrips : List EtaSample :=
  (List.range 10).map fun i => { predictedSeconds := 600, actualSeconds := 660 + 60 * i }

theorem calibrate_covers_late : ∃ bound envelope, p90 lateTrips = some bound ∧
    calibrateFromHistory 300 (4 / 5) false lateTrips 0 true = some envelope ∧
    (9 / 10 : ℚ) * lateTrips.length ≤ covered lateTrips bound ∧
    envelope.lowerSeconds ≤ envelope.expectedSeconds := by
  obtain ⟨bound, envelope, chosen, calibrated, -, nine, -, -, -, -, below, -⟩ :=
    calibrate_covers 300 (4 / 5) false lateTrips 0 true (by norm_num) (by decide)
  exact ⟨bound, envelope, chosen, calibrated, nine, below⟩

end MapGo.Planning
