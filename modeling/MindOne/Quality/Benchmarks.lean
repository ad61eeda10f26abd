import MindOne.Lib.CheckedArithmetic
import MindOne.Lib.RequantisedMean
import Mathlib.Data.Rat.Cast.Order

/-!
# The running benchmark mean and the rank of a score

A trusted evaluation moves the stored benchmark of a model, an integer in millionths, by
its own score and number of samples. The tier of a model also depends on its rank among
the models of its name: the share of the others that it beats, where ties count half. The
rank is computed in floating point, so every operation on it is followed by a rounding.
-/

namespace MindOne.Quality

open CheckedArithmetic RequantisedMean

inductive QualityGovernanceError where
  | invalidInput (message : String)
  deriving DecidableEq

abbrev QualityGovernanceResult := Except QualityGovernanceError

def maxScoreSamplesPerEvent : Int := 10000

/-- The columns of a model that a benchmark changes. -/
structure BenchmarkColumns where
  benchmarkNormalized : Int
  benchmarkSamples : Int
  deriving DecidableEq

/-- `TrustedEventPayload::Score` -/
structure ScorePayload where
  scoreNormalized : Int
  sampleCount : Int

def checked (bits : Nat) (value : Int) (message : String) : QualityGovernanceResult Int :=
  if Fits bits value then .ok value else .error (.invalidInput message)

def ScorePayload.validate (payload : ScorePayload) : QualityGovernanceResult Unit := do
  rejectIf (¬(0 ≤ payload.scoreNormalized ∧ payload.scoreNormalized ≤ 1000000))
    (.invalidInput "score_normalized 必须在 0 到 1000000 之间")
  rejectIf (¬(1 ≤ payload.sampleCount ∧ payload.sampleCount ≤ maxScoreSamplesPerEvent))
    (.invalidInput "sample_count 必须在 1 到 10000 之间")

def BenchmarkColumns.applyScore (target : BenchmarkColumns) (payload : ScorePayload) :
    QualityGovernanceResult BenchmarkColumns := do
  let totalSamples ← checked 32 (target.benchmarkSamples + payload.sampleCount)
    "benchmark 样本数溢出"
  let oldWeighted ← checked 64 (target.benchmarkNormalized * target.benchmarkSamples)
    "benchmark 累计分数溢出"
  let newWeighted ← checked 64 (payload.scoreNormalized * payload.sampleCount)
    "benchmark 评价分数溢出"
  let weighted ← checked 64 (oldWeighted + newWeighted) "benchmark 总分溢出"
  let rounded ← checked 64 (weighted + totalSamples.tdiv 2) "benchmark 舍入溢出"
  let benchmarkNormalized ← checked 32 (rounded.tdiv totalSamples)
    "benchmark 归一化结果超出范围"
  return ⟨benchmarkNormalized, totalSamples⟩

/-- An event is validated before it is applied. -/
def BenchmarkColumns.recordScore (target : BenchmarkColumns) (payload : ScorePayload) :
    QualityGovernanceResult BenchmarkColumns := do
  payload.validate
  target.applyScore payload

def BenchmarkColumns.recordScores (target : BenchmarkColumns) (payloads : List ScorePayload) :
    QualityGovernanceResult BenchmarkColumns :=
  payloads.foldlM BenchmarkColumns.recordScore target

section Percentile
variable (rnd : ℚ → ℚ)

def scorePercentile (score : Int) (allScores : List Int) : QualityGovernanceResult ℚ := do
  rejectIf (allScores = []) (.invalidInput "Tier 相对排名集合不能为空")
  if allScores.length = 1 then return 1 / 2
  else
    let lower := allScores.countP (· < score)
    let equalPeers := allScores.countP (· = score) - 1
    rejectIf (2 ^ 32 ≤ lower) (.invalidInput "Tier 排名集合过大")
    rejectIf (2 ^ 32 ≤ equalPeers) (.invalidInput "Tier 排名集合过大")
    rejectIf (2 ^ 32 ≤ allScores.length - 1) (.invalidInput "Tier 排名集合过大")
    let denominator := allScores.length - 1
    return rnd (rnd (lower + rnd (equalPeers / 2)) / denominator)

/-- The nearest integer, halves away from zero. -/
def rounded (value : ℚ) : QualityGovernanceResult Int := do
  rejectIf (¬(0 ≤ value ∧ value ≤ 4000000000)) (.invalidInput "浮点评分结果超出可持久化范围")
  return ⌊value + 1 / 2⌋

def normalizedToMillionths (value : ℚ) : QualityGovernanceResult Int := do
  let scaled ← rounded (rnd (value * 1000000))
  let normalized ← checked 32 scaled "归一化分数超出整数范围"
  rejectIf (¬(0 ≤ normalized ∧ normalized ≤ 1000000))
    (.invalidInput "归一化分数超出 0 到 1000000")
  return normalized

/-- The rank of a model in millionths. -/
def percentileMillionths (score : Int) (allScores : List Int) : QualityGovernanceResult Int := do
  let percentile ← scorePercentile rnd score allScores
  normalizedToMillionths rnd percentile

end Percentile

/-- A rounding of exact results to binary words of double precision: it keeps the order and
the numbers with few digits. -/
structure DoubleRounding (rnd : ℚ → ℚ) : Prop where
  mono : Monotone rnd
  exact : ∀ halves : Nat, halves ≤ 2 ^ 53 → rnd (halves / 2) = halves / 2

end MindOne.Quality
