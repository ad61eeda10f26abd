import MindOne.Quality.Benchmarks
import Mathlib.Data.Rat.Floor

/-!
# The range, the size and the drift of the stored mean

The stored mean stays within the range of the scores, so no product or sum of the update
leaves its word, and only the number of samples may. Each update rounds to a nearest
integer, and the error of a whole history is at most half a unit for each of them. The
rank of a score stays within its range and does not depend on the order of the cohort.
-/

namespace MindOne.Quality

open CheckedArithmetic RequantisedMean

theorem checked_of_fits {bits : Nat} {value : Int} (message : String) (h : Fits bits value) :
    checked bits value message = .ok value := if_pos h

theorem fits_32 {n : Int} : Fits 32 n ↔ -2147483648 ≤ n ∧ n < 2147483648 := by
  simp only [Fits]
  norm_num

def BenchmarkColumns.weighted (columns : BenchmarkColumns) : Weighted :=
  ⟨columns.benchmarkNormalized, columns.benchmarkSamples⟩

def ScorePayload.weighted (payload : ScorePayload) : Weighted :=
  ⟨payload.scoreNormalized, payload.sampleCount⟩

def BenchmarkColumns.ofWeighted (mean : Weighted) : BenchmarkColumns := ⟨mean.value, mean.weight⟩

/-- What the checks of the table and the type of the columns allow. -/
structure BenchmarkColumns.Stored (columns : BenchmarkColumns) : Prop where
  within : columns.weighted.Within 1000000
  small : columns.benchmarkSamples < 2147483648

def ScorePayload.Valid (payload : ScorePayload) : Prop := payload.validate = .ok ()

theorem ScorePayload.Valid.bounds {payload : ScorePayload} (h : payload.Valid) :
    payload.weighted.Within 1000000 ∧ 1 ≤ payload.sampleCount ∧
      payload.sampleCount ≤ 10000 := by
  simp only [Valid, validate, bind_eq_ok, rejectIf_eq_ok, not_not] at h
  obtain ⟨_, ⟨hnonneg, hle⟩, hpos, hcount⟩ := h
  exact ⟨⟨hnonneg, hle, Int.le_trans Int.one_nonneg hpos⟩, hpos, hcount⟩

section Update
variable {target : BenchmarkColumns} {payload : ScorePayload}

/-- An update merges the score into the mean, as long as the samples can be counted. -/
theorem BenchmarkColumns.Stored.recordScore_eq (h : target.Stored) (hvalid : payload.Valid) :
    target.recordScore payload =
      if target.benchmarkSamples + payload.sampleCount < 2147483648 then
        .ok (.ofWeighted (merge target.weighted payload.weighted))
      else .error (.invalidInput "benchmark 样本数溢出") := by
  obtain ⟨hpayload, hpos, hcount⟩ := hvalid.bounds
  have hold : 0 ≤ target.benchmarkNormalized * target.benchmarkSamples ∧
      target.benchmarkNormalized * target.benchmarkSamples ≤ 1000000 * target.benchmarkSamples :=
    ⟨h.within.sum_nonneg, h.within.sum_le⟩
  have hnew : 0 ≤ payload.scoreNormalized * payload.sampleCount ∧
      payload.scoreNormalized * payload.sampleCount ≤ 1000000 * payload.sampleCount :=
    ⟨hpayload.sum_nonneg, hpayload.sum_le⟩
  have hsamples : 0 ≤ target.benchmarkSamples := h.within.weight
  have hsmall := h.small
  rw [recordScore, hvalid]
  change target.applyScore payload = _
  split
  · next hfits =>
      have htotal : 0 < target.benchmarkSamples + payload.sampleCount := by omega
      have hhalf : (target.benchmarkSamples + payload.sampleCount).tdiv 2 =
          (target.benchmarkSamples + payload.sampleCount) / 2 :=
        Int.tdiv_eq_ediv_of_nonneg htotal.le
      have hmerged := merge_within h.within hpayload hpos
      have hmean : (target.benchmarkNormalized * target.benchmarkSamples +
            payload.scoreNormalized * payload.sampleCount +
            (target.benchmarkSamples + payload.sampleCount) / 2).tdiv
          (target.benchmarkSamples + payload.sampleCount) =
            (merge target.weighted payload.weighted).value :=
        Int.tdiv_eq_ediv_of_nonneg (by omega)
      have hrange := hmerged.nonneg
      have hrange' := hmerged.le
      rw [applyScore, checked_of_fits _ (fits_32.mpr (by omega))]
      simp only [bind, Except.bind]
      rw [checked_of_fits _ (fits_64.mpr (by omega)), checked_of_fits _ (fits_64.mpr (by omega))]
      simp only
      rw [checked_of_fits _ (fits_64.mpr (by omega))]
      simp only
      rw [hhalf, checked_of_fits _ (fits_64.mpr (by omega))]
      simp only
      rw [hmean, checked_of_fits _ (fits_32.mpr (by omega))]
      rfl
  · next hoverflow =>
      rw [applyScore, checked, if_neg fun hfits => hoverflow (fits_32.mp hfits).2]
      rfl

theorem BenchmarkColumns.Stored.merge (h : target.Stored) (hvalid : payload.Valid)
    (hfits : target.benchmarkSamples + payload.sampleCount < 2147483648) :
    (BenchmarkColumns.ofWeighted (merge target.weighted payload.weighted)).Stored :=
  ⟨merge_within h.within hvalid.bounds.1 hvalid.bounds.2.1, hfits⟩

/-- A history merges its scores one after the other. -/
theorem BenchmarkColumns.Stored.recordScores_eq {start : BenchmarkColumns} (h : start.Stored)
    {payloads : List ScorePayload} (hvalid : ∀ payload ∈ payloads, payload.Valid) :
    start.recordScores payloads =
      if totalWeight start.weighted (payloads.map ScorePayload.weighted) < 2147483648 then
        .ok (.ofWeighted ((payloads.map ScorePayload.weighted).foldl RequantisedMean.merge
          start.weighted))
      else .error (.invalidInput "benchmark 样本数溢出") := by
  induction payloads generalizing start with
  | nil =>
      have hsmall : totalWeight start.weighted [] < 2147483648 := by
        simpa [totalWeight, weighted] using h.small
      rw [List.map_nil, if_pos hsmall]
      rfl
  | cons payload rest ih =>
      obtain ⟨hpayload, hrest⟩ := List.forall_mem_cons.mp hvalid
      have hnonneg : 0 ≤ ((rest.map ScorePayload.weighted).map Weighted.weight).sum := by
        refine sum_weights_nonneg fun value hvalue => ?_
        obtain ⟨later, hlater, rfl⟩ := List.mem_map.mp hvalue
        exact (hrest later hlater).bounds.2.1
      have htotal : totalWeight start.weighted ((payload :: rest).map ScorePayload.weighted) =
          start.benchmarkSamples + payload.sampleCount +
            ((rest.map ScorePayload.weighted).map Weighted.weight).sum := by
        simp [totalWeight, weighted, ScorePayload.weighted, add_assoc]
      rw [recordScores, List.foldlM_cons, h.recordScore_eq hpayload]
      by_cases hfits : start.benchmarkSamples + payload.sampleCount < 2147483648
      · rw [if_pos hfits]
        refine (ih (h.merge hpayload hfits) hrest).trans ?_
        have hsame : totalWeight (BenchmarkColumns.ofWeighted
            (RequantisedMean.merge start.weighted payload.weighted)).weighted
              (rest.map ScorePayload.weighted) =
            totalWeight start.weighted ((payload :: rest).map ScorePayload.weighted) := by
          rw [htotal]
          rfl
        rw [hsame]
        rfl
      · rw [if_neg hfits, if_neg (by omega)]
        rfl

theorem BenchmarkColumns.Stored.foldl_stored {start : BenchmarkColumns} (h : start.Stored)
    {payloads : List ScorePayload} (hvalid : ∀ payload ∈ payloads, payload.Valid)
    (hfits : totalWeight start.weighted (payloads.map ScorePayload.weighted) < 2147483648) :
    (BenchmarkColumns.ofWeighted ((payloads.map ScorePayload.weighted).foldl
      RequantisedMean.merge start.weighted)).Stored := by
  refine ⟨?_, foldl_merge_weight.trans_lt hfits⟩
  have hwithin : ∀ (mean : Weighted) (values : List Weighted), mean.Within 1000000 →
      (∀ value ∈ values, value.Within 1000000 ∧ 0 < value.weight) →
      (values.foldl RequantisedMean.merge mean).Within 1000000 := by
    intro mean values hmean hvalues
    induction values generalizing mean with
    | nil => exact hmean
    | cons value rest ih =>
        obtain ⟨⟨hvalue, hpos⟩, hrest⟩ := List.forall_mem_cons.mp hvalues
        exact ih _ (merge_within hmean hvalue hpos) hrest
  refine hwithin _ _ h.within fun value hvalue => ?_
  obtain ⟨payload, hpayload, rfl⟩ := List.mem_map.mp hvalue
  exact ⟨(hvalid payload hpayload).bounds.1, (hvalid payload hpayload).bounds.2.1⟩

end Update

/-! ## The rank of a score -/

section Percentile
variable {rnd : ℚ → ℚ} {score : Int} {allScores other : List Int}

theorem countP_lt_add_countP_eq_le (score : Int) (allScores : List Int) :
    allScores.countP (· < score) + allScores.countP (· = score) ≤ allScores.length := by
  induction allScores with
  | nil => simp
  | cons candidate rest ih =>
      simp only [List.countP_cons, decide_eq_true_eq, List.length_cons]
      split <;> split <;> omega

theorem scorePercentile_perm (hperm : other.Perm allScores) :
    scorePercentile rnd score other = scorePercentile rnd score allScores := by
  have hnil : other = [] ↔ allScores = [] := by
    rw [← List.length_eq_zero_iff, ← List.length_eq_zero_iff, hperm.length_eq]
  simp only [scorePercentile, hperm.length_eq, hperm.countP_eq, hnil]

/-- Without rounding the rank is a share of the others. -/
theorem share_bounds {lower equalPeers denominator : Nat} (hpos : 0 < denominator)
    (hsum : lower + equalPeers ≤ denominator) :
    0 ≤ ((lower : ℚ) + equalPeers / 2) / denominator ∧
      ((lower : ℚ) + equalPeers / 2) / denominator ≤ 1 := by
  have hdenominator : (0 : ℚ) < denominator := Nat.cast_pos.mpr hpos
  have hle : (lower : ℚ) + equalPeers ≤ denominator := by exact_mod_cast hsum
  have hlower : (0 : ℚ) ≤ lower := Nat.cast_nonneg lower
  have hequal : (0 : ℚ) ≤ equalPeers := Nat.cast_nonneg equalPeers
  constructor
  · positivity
  · rw [div_le_one hdenominator]
    linarith

namespace DoubleRounding
variable (h : DoubleRounding rnd)
include h

theorem nat {n : Nat} (hn : n ≤ 2 ^ 52) : rnd n = n := by
  have hexact := h.exact (2 * n) (by omega)
  rwa [Nat.cast_mul, Nat.cast_two, mul_div_cancel_left₀ _ two_ne_zero] at hexact

theorem scorePercentile_bounds (hmem : score ∈ allScores) (hsize : allScores.length ≤ 2 ^ 32) :
    ∃ percentile, scorePercentile rnd score allScores = .ok percentile ∧
      0 ≤ percentile ∧ percentile ≤ 1 := by
  have hnonempty : allScores ≠ [] := List.ne_nil_of_mem hmem
  have hsum := countP_lt_add_countP_eq_le score allScores
  have hself : 0 < allScores.countP (· = score) :=
    List.countP_pos_iff.mpr ⟨score, hmem, decide_eq_true rfl⟩
  rw [scorePercentile, rejectIf_of_not _ hnonempty]
  by_cases hone : allScores.length = 1
  · exact ⟨1 / 2, if_pos hone, by norm_num, by norm_num⟩
  · have hlength : 0 < allScores.length := List.length_pos_of_ne_nil hnonempty
    set lower := allScores.countP (· < score)
    set equalPeers := allScores.countP (· = score) - 1 with hequalPeers
    refine ⟨rnd (rnd (lower + rnd (equalPeers / 2)) / (allScores.length - 1 : Nat)), ?_, ?_⟩
    · refine (if_neg hone).trans ?_
      rw [rejectIf_of_not _ (by omega), rejectIf_of_not _ (by omega),
        rejectIf_of_not _ (by omega)]
      rfl
    · have hhalf : rnd ((equalPeers : ℚ) / 2) = equalPeers / 2 := h.exact equalPeers (by omega)
      have hnumerator : rnd ((lower : ℚ) + equalPeers / 2) = lower + equalPeers / 2 := by
        have hexact := h.exact (2 * lower + equalPeers) (by omega)
        have hsplit : ((2 * lower + equalPeers : Nat) : ℚ) / 2 = lower + equalPeers / 2 := by
          push_cast
          ring
        rwa [hsplit] at hexact
      have hpeers : lower + equalPeers ≤ allScores.length - 1 := by omega
      obtain ⟨hnonneg, hle⟩ := share_bounds (by omega) hpeers
      have hzero : rnd (0 : ℚ) = 0 := by simpa using h.nat (n := 0) (by decide)
      have hone' : rnd (1 : ℚ) = 1 := by simpa using h.nat (n := 1) (by decide)
      rw [hhalf, hnumerator]
      exact ⟨hzero ▸ h.mono hnonneg, hone' ▸ h.mono hle⟩

theorem normalizedToMillionths_bounds {percentile : ℚ} (hnonneg : 0 ≤ percentile)
    (hle : percentile ≤ 1) : ∃ millionths, normalizedToMillionths rnd percentile = .ok millionths ∧
      0 ≤ millionths ∧ millionths ≤ 1000000 := by
  have hzero : rnd (0 : ℚ) = 0 := by simpa using h.nat (n := 0) (by decide)
  have hmillion : rnd (1000000 : ℚ) = 1000000 := by
    simpa using h.nat (n := 1000000) (by norm_num)
  have hlow : 0 ≤ rnd (percentile * 1000000) := hzero ▸ h.mono (by positivity)
  have hhigh : rnd (percentile * 1000000) ≤ 1000000 := by
    have := h.mono (show percentile * 1000000 ≤ 1000000 by linarith)
    rwa [hmillion] at this
  have hfloor : 0 ≤ ⌊rnd (percentile * 1000000) + 1 / 2⌋ := Int.floor_nonneg.mpr (by linarith)
  have hfloor' : ⌊rnd (percentile * 1000000) + 1 / 2⌋ ≤ 1000000 := by
    refine Int.lt_add_one_iff.mp (Int.floor_lt.mpr ?_)
    push_cast
    linarith
  refine ⟨_, ?_, hfloor, hfloor'⟩
  rw [normalizedToMillionths, rounded, rejectIf_of_not _ (not_not.mpr ⟨hlow, by linarith⟩)]
  simp only [bind, Except.bind, pure, Except.pure]
  rw [checked_of_fits _ (fits_32.mpr (by omega))]
  simp only
  rw [rejectIf_of_not _ (not_not.mpr ⟨hfloor, hfloor'⟩)]

end DoubleRounding
end Percentile

/-! ## Every history and every cohort -/

def sampleTotal (start : BenchmarkColumns) (payloads : List ScorePayload) : Int :=
  start.benchmarkSamples + (payloads.map ScorePayload.sampleCount).sum

/-- The mean of what is stored and all later samples, without rounding. -/
def exactMean (start : BenchmarkColumns) (payloads : List ScorePayload) : ℚ :=
  ((start.benchmarkNormalized * start.benchmarkSamples +
    (payloads.map fun payload => payload.scoreNormalized * payload.sampleCount).sum : Int) : ℚ) /
    sampleTotal start payloads

theorem totalWeight_weighted (start : BenchmarkColumns) (payloads : List ScorePayload) :
    totalWeight start.weighted (payloads.map ScorePayload.weighted) =
      sampleTotal start payloads := by
  simp [totalWeight, sampleTotal, BenchmarkColumns.weighted, ScorePayload.weighted,
    Function.comp_def]

theorem totalSum_weighted (start : BenchmarkColumns) (payloads : List ScorePayload) :
    totalSum start.weighted (payloads.map ScorePayload.weighted) =
      start.benchmarkNormalized * start.benchmarkSamples +
        (payloads.map fun payload => payload.scoreNormalized * payload.sampleCount).sum := by
  simp [totalSum, Weighted.sum, BenchmarkColumns.weighted, ScorePayload.weighted,
    Function.comp_def]

/-- Every history of valid scores is stored until its samples cannot be counted any more, its mean
stays in the range of the scores, and it drifts by half a unit for each update at most. The rank
of a member of a cohort is in the same range, in whatever order the cohort stands. -/
theorem benchmark_mean_and_rank :
    (∀ (start : BenchmarkColumns) (payloads : List ScorePayload), start.Stored →
      (∀ payload ∈ payloads, payload.Valid) →
      (sampleTotal start payloads < 2 ^ 31 → ∃ final, start.recordScores payloads = .ok final ∧
        (0 ≤ final.benchmarkNormalized ∧ final.benchmarkNormalized ≤ 1000000) ∧
        final.benchmarkSamples = sampleTotal start payloads ∧
        (payloads ≠ [] →
          |(final.benchmarkNormalized : ℚ) - exactMean start payloads| ≤ payloads.length / 2)) ∧
      (2 ^ 31 ≤ sampleTotal start payloads →
        start.recordScores payloads = .error (.invalidInput "benchmark 样本数溢出"))) ∧
    (∀ (rnd : ℚ → ℚ) (score : Int) (allScores : List Int), DoubleRounding rnd →
      score ∈ allScores → allScores.length ≤ 2 ^ 32 →
      ∃ millionths, percentileMillionths rnd score allScores = .ok millionths ∧
        0 ≤ millionths ∧ millionths ≤ 1000000) ∧
    ∀ (rnd : ℚ → ℚ) (score : Int) (allScores other : List Int), other.Perm allScores →
      scorePercentile rnd score other = scorePercentile rnd score allScores ∧
      percentileMillionths rnd score other = percentileMillionths rnd score allScores := by
  refine ⟨fun start payloads hstart hvalid => ?_, fun rnd score allScores h hmem hsize => ?_,
    fun rnd score allScores other hperm => ⟨scorePercentile_perm hperm, ?_⟩⟩
  · have hrecord := hstart.recordScores_eq hvalid
    rw [totalWeight_weighted] at hrecord
    have hword : (2 : Int) ^ 31 = 2147483648 := by norm_num
    rw [hword]
    constructor
    · intro hfits
      have hstored := hstart.foldl_stored hvalid
        ((totalWeight_weighted start payloads).trans_lt hfits)
      rw [if_pos hfits] at hrecord
      refine ⟨_, hrecord, ⟨hstored.within.nonneg, hstored.within.le⟩, ?_, fun hnonempty => ?_⟩
      · exact foldl_merge_weight.trans (totalWeight_weighted start payloads)
      · have hpos : ∀ value ∈ payloads.map ScorePayload.weighted, 0 < value.weight := by
          intro value hvalue
          obtain ⟨payload, hpayload, rfl⟩ := List.mem_map.mp hvalue
          exact (hvalid payload hpayload).bounds.2.1
        have herror := foldl_merge_error hstart.within.weight hpos
          (fun hnil => hnonempty (List.map_eq_nil_iff.mp hnil))
        rwa [totalWeight_weighted, totalSum_weighted, List.length_map] at herror
    · intro hoverflow
      rw [hrecord, if_neg (by omega)]
  · obtain ⟨percentile, hpercentile, hnonneg, hle⟩ := h.scorePercentile_bounds hmem hsize
    obtain ⟨millionths, hmillionths, hrange⟩ := h.normalizedToMillionths_bounds hnonneg hle
    refine ⟨millionths, ?_, hrange⟩
    rw [percentileMillionths, hpercentile]
    exact hmillionths
  · rw [percentileMillionths, percentileMillionths, scorePercentile_perm hperm]

/-- Two samples round up to one millionth, half a unit above their mean. -/
theorem benchmark_mean_and_rank_sample :
    BenchmarkColumns.recordScores ⟨0, 0⟩ [⟨0, 1⟩, ⟨1, 1⟩] = .ok ⟨1, 2⟩ ∧
    |((1 : Int) : ℚ) - exactMean ⟨0, 0⟩ [⟨0, 1⟩, ⟨1, 1⟩]| ≤ 2 / 2 ∧
    (∃ millionths, percentileMillionths id 10 [10, 10, 20] = .ok millionths ∧ 0 ≤ millionths ∧
      millionths ≤ 1000000) ∧
    scorePercentile id 10 [10, 20, 10] = scorePercentile id 10 [10, 10, 20] := by
  have hstored : BenchmarkColumns.Stored ⟨0, 0⟩ := ⟨⟨le_rfl, by decide, le_rfl⟩, by decide⟩
  have hvalid : ∀ payload ∈ [ScorePayload.mk 0 1, ⟨1, 1⟩], payload.Valid := by
    intro payload hmem
    simp only [List.mem_cons, List.not_mem_nil, or_false] at hmem
    rcases hmem with rfl | rfl <;> exact rfl
  have hrecord : BenchmarkColumns.recordScores ⟨0, 0⟩ [⟨0, 1⟩, ⟨1, 1⟩] = .ok ⟨1, 2⟩ := by
    decide +kernel
  obtain ⟨final, hfinal, -, -, herror⟩ :=
    (benchmark_mean_and_rank.1 ⟨0, 0⟩ [⟨0, 1⟩, ⟨1, 1⟩] hstored hvalid).1 (by decide)
  cases hrecord.symm.trans hfinal
  exact ⟨hrecord, herror (by simp),
    benchmark_mean_and_rank.2.1 id 10 [10, 10, 20] ⟨monotone_id, fun _ _ => rfl⟩ (by decide)
      (by decide),
    (benchmark_mean_and_rank.2.2 id 10 _ _ (by decide)).1⟩

end MindOne.Quality
