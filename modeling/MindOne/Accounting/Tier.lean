import MindOne.Accounting.Fixed
import Mathlib.Data.Rat.Defs
import Mathlib.Algebra.Order.Ring.Rat
import Mathlib.Tactic.Linarith

/-!
# The tier of a model and its hysteresis

A model rises at a higher score than the one at which it falls again, and a good or a bad
rank among the others may help it over either bound. The validated margins keep this help
outside the two bands. So a tier that has been reached is kept as long as the score stays
on its side of the exit, however it was reached. Scores are exact rationals.
-/

namespace MindOne.Accounting

open CheckedArithmetic

namespace PerformanceTier

def rank : PerformanceTier → Nat
  | .low => 0
  | .medium => 1
  | .high => 2

/-- The order by its two ends. -/
theorem rank_le_iff {a b : PerformanceTier} :
    a.rank ≤ b.rank ↔ (a = .high → b = .high) ∧ (b = .low → a = .low) := by
  cases a <;> cases b <;> simp [rank]

end PerformanceTier

inductive TierError where
  | invalidScore (message : String)
  | invalidTierPolicy (message : String)
  deriving DecidableEq

def TierError.text : TierError → String
  | .invalidScore message => "评分参数无效：" ++ message
  | .invalidTierPolicy message => "Tier 参数无效：" ++ message

structure TierPolicy where
  minimumSamples : Nat
  highEnter : ℚ
  highExit : ℚ
  lowEnter : ℚ
  lowExit : ℚ
  relativeMargin : ℚ
  highPercentile : ℚ
  lowPercentile : ℚ

def TierPolicy.default : TierPolicy where
  minimumSamples := 20
  highEnter := 80 / 100
  highExit := 72 / 100
  lowEnter := 35 / 100
  lowExit := 42 / 100
  relativeMargin := 3 / 100
  highPercentile := 80 / 100
  lowPercentile := 20 / 100

structure TierResult where
  tier : PerformanceTier
  coldStart : Bool
  relativeAssistApplied : Bool
  deriving DecidableEq

def InUnitInterval (value : ℚ) : Prop := 0 ≤ value ∧ value ≤ 1

instance (value : ℚ) : Decidable (InUnitInterval value) := inferInstanceAs (Decidable (_ ∧ _))

def validateUnitInterval (value : ℚ) (name : String) : Except TierError Unit :=
  rejectIf (¬InUnitInterval value) (.invalidScore (name ++ " 必须是 0 到 1 之间的有限数"))

namespace TierPolicy
variable (policy : TierPolicy)

/-- An error of the interval becomes one of the policy. -/
def validateField (value : ℚ) (name : String) : Except TierError Unit :=
  (validateUnitInterval value name).mapError fun error => .invalidTierPolicy error.text

def validate : Except TierError Unit := do
  validateField policy.highEnter "high_enter"
  validateField policy.highExit "high_exit"
  validateField policy.lowEnter "low_enter"
  validateField policy.lowExit "low_exit"
  validateField policy.highPercentile "high_percentile"
  validateField policy.lowPercentile "low_percentile"
  rejectIf (policy.minimumSamples = 0) (.invalidTierPolicy "minimum_samples 必须大于零")
  rejectIf (policy.relativeMargin < 0) (.invalidTierPolicy "relative_margin 必须是非负有限数")
  rejectIf (¬(policy.lowEnter < policy.lowExit ∧ policy.lowExit < policy.highExit ∧
      policy.highExit < policy.highEnter))
    (.invalidTierPolicy "Tier 门槛必须满足 low_enter < low_exit < high_exit < high_enter")
  rejectIf (policy.lowExit < policy.lowEnter + policy.relativeMargin ∨
      policy.highEnter - policy.relativeMargin < policy.highExit)
    (.invalidTierPolicy "相对排名辅助区间不得穿过升降级滞回区间")
  rejectIf (policy.highPercentile ≤ policy.lowPercentile)
    (.invalidTierPolicy "低位 percentile 必须小于高位 percentile")

def HighRelativeAssist (absoluteScore percentile : ℚ) : Prop :=
  policy.highEnter - policy.relativeMargin ≤ absoluteScore ∧ policy.highPercentile ≤ percentile

def LowRelativeAssist (absoluteScore percentile : ℚ) : Prop :=
  absoluteScore ≤ policy.lowEnter + policy.relativeMargin ∧ percentile ≤ policy.lowPercentile

instance (absoluteScore percentile : ℚ) :
    Decidable (policy.HighRelativeAssist absoluteScore percentile) :=
  inferInstanceAs (Decidable (_ ∧ _))

instance (absoluteScore percentile : ℚ) :
    Decidable (policy.LowRelativeAssist absoluteScore percentile) :=
  inferInstanceAs (Decidable (_ ∧ _))

/-- The tier with enough samples, and whether the rank has helped. -/
def settle (current : PerformanceTier) (absoluteScore percentile : ℚ) : PerformanceTier × Bool :=
  match current with
  | .high => if policy.highExit ≤ absoluteScore then (.high, false) else (.medium, false)
  | .low => if absoluteScore ≤ policy.lowExit then (.low, false) else (.medium, false)
  | .medium =>
      if policy.highEnter ≤ absoluteScore then (.high, false)
      else if policy.HighRelativeAssist absoluteScore percentile then (.high, true)
      else if absoluteScore ≤ policy.lowEnter then (.low, false)
      else if policy.LowRelativeAssist absoluteScore percentile then (.low, true)
      else (.medium, false)

def classify (current : PerformanceTier) (absoluteScore percentile : ℚ) (validSamples : Nat) :
    Except TierError TierResult := do
  policy.validate
  validateUnitInterval absoluteScore "absolute_score"
  validateUnitInterval percentile "percentile"
  if validSamples < policy.minimumSamples then return ⟨.medium, true, false⟩
  else
    let (tier, relativeAssistApplied) := policy.settle current absoluteScore percentile
    return ⟨tier, false, relativeAssistApplied⟩

/-- The order of the thresholds that the validation leaves. -/
structure Ordered : Prop where
  margin : 0 ≤ policy.relativeMargin
  exits : policy.lowExit < policy.highExit
  lowBand : policy.lowEnter + policy.relativeMargin ≤ policy.lowExit
  highBand : policy.highExit ≤ policy.highEnter - policy.relativeMargin
  percentiles : policy.lowPercentile < policy.highPercentile

variable {policy}

theorem ordered_of_validate (h : policy.validate = .ok ()) : policy.Ordered := by
  simp only [validate, bind_eq_ok, rejectIf_eq_ok] at h
  obtain ⟨_, -, _, -, _, -, _, -, _, -, _, -, _, -, _, hmargin, _, horder, _, hbands,
    hpercentiles⟩ := h
  rw [not_not] at horder
  rw [not_or, not_lt, not_lt] at hbands
  exact ⟨not_lt.mp hmargin, horder.2.1, hbands.1, hbands.2, not_le.mp hpercentiles⟩

/-- With a valid policy, valid numbers and enough samples the classification succeeds. -/
theorem classify_eq (h : policy.validate = .ok ()) {absoluteScore percentile : ℚ}
    (hscore : InUnitInterval absoluteScore) (hpercentile : InUnitInterval percentile)
    {validSamples : Nat} (hsamples : policy.minimumSamples ≤ validSamples)
    (current : PerformanceTier) :
    policy.classify current absoluteScore percentile validSamples =
      .ok ⟨(policy.settle current absoluteScore percentile).1, false,
        (policy.settle current absoluteScore percentile).2⟩ := by
  rw [classify, h, validateUnitInterval, validateUnitInterval,
    rejectIf_of_not _ (not_not.mpr hscore), rejectIf_of_not _ (not_not.mpr hpercentile)]
  exact if_neg (Nat.not_lt.mpr hsamples)

/-! ## The two sides of a band -/

variable (policy) in
def Rises (absoluteScore percentile : ℚ) : Prop :=
  policy.highEnter ≤ absoluteScore ∨ policy.HighRelativeAssist absoluteScore percentile

variable (policy) in
def Sinks (absoluteScore percentile : ℚ) : Prop :=
  absoluteScore ≤ policy.lowEnter ∨ policy.LowRelativeAssist absoluteScore percentile

section Bands
variable {score score' percentile percentile' : ℚ} {current current' : PerformanceTier}

theorem Rises.mono (h : policy.Rises score percentile) (hscore : score ≤ score')
    (hpercentile : percentile ≤ percentile') : policy.Rises score' percentile' := by
  rcases h with h | ⟨h, hrank⟩
  · exact .inl (h.trans hscore)
  · exact .inr ⟨h.trans hscore, hrank.trans hpercentile⟩

theorem Sinks.anti (h : policy.Sinks score' percentile') (hscore : score ≤ score')
    (hpercentile : percentile ≤ percentile') : policy.Sinks score percentile := by
  rcases h with h | ⟨h, hrank⟩
  · exact .inl (hscore.trans h)
  · exact .inr ⟨hscore.trans h, hpercentile.trans hrank⟩

theorem settle_eq_high : (policy.settle current score percentile).1 = .high ↔
    current = .high ∧ policy.highExit ≤ score ∨
      current = .medium ∧ policy.Rises score percentile := by
  cases current with
  | high => by_cases h : policy.highExit ≤ score <;> simp [settle, h]
  | low => by_cases h : score ≤ policy.lowExit <;> simp [settle, h]
  | medium =>
      simp only [settle, Rises, reduceCtorEq, false_and, false_or, true_and]
      split
      · simp_all
      · split
        · simp_all
        · split
          · simp_all
          · split <;> simp_all

/-- A step leads to the medium tier or stays. -/
theorem settle_cases (hcurrent : current ≠ .medium) :
    (policy.settle current score percentile).1 = .medium ∨
      (policy.settle current score percentile).1 = current := by
  cases current with
  | medium => exact absurd rfl hcurrent
  | high => by_cases hexit : policy.highExit ≤ score <;> simp [settle, hexit]
  | low => by_cases hexit : score ≤ policy.lowExit <;> simp [settle, hexit]

namespace Ordered
variable (h : policy.Ordered)
include h

/-- The help of a rank does not reach into the upper band. -/
theorem highExit_le (hrises : policy.Rises score percentile) : policy.highExit ≤ score := by
  have hmargin := h.margin
  have hband := h.highBand
  rcases hrises with hrises | ⟨hrises, -⟩ <;> linarith

theorem le_lowExit (hsinks : policy.Sinks score percentile) : score ≤ policy.lowExit := by
  have hmargin := h.margin
  have hband := h.lowBand
  rcases hsinks with hsinks | ⟨hsinks, -⟩ <;> linarith

theorem not_rises_of_le (hle : score ≤ policy.lowExit) : ¬policy.Rises score percentile :=
  fun hrises => absurd (h.highExit_le hrises) (not_le.mpr (hle.trans_lt h.exits))

theorem settle_eq_low : (policy.settle current score percentile).1 = .low ↔
    current = .low ∧ score ≤ policy.lowExit ∨
      current = .medium ∧ policy.Sinks score percentile := by
  cases current with
  | high => by_cases hexit : policy.highExit ≤ score <;> simp [settle, hexit]
  | low => by_cases hexit : score ≤ policy.lowExit <;> simp [settle, hexit]
  | medium =>
      have hexclusive : policy.Sinks score percentile → ¬policy.Rises score percentile :=
        fun hsinks => h.not_rises_of_le (h.le_lowExit hsinks)
      simp only [Rises, Sinks] at hexclusive
      simp only [settle, Sinks, reduceCtorEq, false_and, false_or, true_and]
      split
      · simp_all
      · split
        · simp_all
        · split
          · simp_all
          · split <;> simp_all

/-- Higher scores, better ranks and higher tiers lead to tiers at least as high. -/
theorem settle_mono (hcurrent : current.rank ≤ current'.rank) (hscore : score ≤ score')
    (hpercentile : percentile ≤ percentile') :
    (policy.settle current score percentile).1.rank ≤
      (policy.settle current' score' percentile').1.rank := by
  rw [PerformanceTier.rank_le_iff] at hcurrent ⊢
  obtain ⟨hhigh, hlow⟩ := hcurrent
  constructor
  · rw [settle_eq_high, settle_eq_high]
    rintro (⟨rfl, hexit⟩ | ⟨rfl, hrises⟩)
    · exact .inl ⟨hhigh rfl, hexit.trans hscore⟩
    · cases current' with
      | high => exact .inl ⟨rfl, (h.highExit_le hrises).trans hscore⟩
      | medium => exact .inr ⟨rfl, hrises.mono hscore hpercentile⟩
      | low => cases hlow rfl
  · rw [h.settle_eq_low, h.settle_eq_low]
    rintro (⟨rfl, hexit⟩ | ⟨rfl, hsinks⟩)
    · exact .inl ⟨hlow rfl, hscore.trans hexit⟩
    · cases current with
      | low => exact .inl ⟨rfl, hscore.trans (h.le_lowExit hsinks)⟩
      | medium => exact .inr ⟨rfl, hsinks.anti hscore hpercentile⟩
      | high => cases hhigh rfl

/-- What has been reached is kept under the same numbers. -/
theorem settle_settle (hmedium : current = .medium) :
    (policy.settle (policy.settle current score percentile).1 score percentile).1 =
      (policy.settle current score percentile).1 := by
  subst hmedium
  cases hnext : (policy.settle .medium score percentile).1 with
  | medium => exact hnext
  | high =>
      rcases settle_eq_high.mp hnext with ⟨hcurrent, -⟩ | ⟨-, hrises⟩
      · cases hcurrent
      · exact settle_eq_high.mpr (.inl ⟨rfl, h.highExit_le hrises⟩)
  | low =>
      rcases h.settle_eq_low.mp hnext with ⟨hcurrent, -⟩ | ⟨-, hsinks⟩
      · cases hcurrent
      · exact h.settle_eq_low.mpr (.inl ⟨rfl, h.le_lowExit hsinks⟩)

theorem settle_twice :
    (policy.settle (policy.settle (policy.settle current score percentile).1 score percentile).1
        score percentile).1 =
      (policy.settle (policy.settle current score percentile).1 score percentile).1 := by
  by_cases hcurrent : current = .medium
  · rw [h.settle_settle hcurrent, h.settle_settle hcurrent]
  · rcases settle_cases hcurrent with hnext | hnext
    · exact h.settle_settle hnext
    · rw [hnext, hnext, hnext]

end Ordered
end Bands

/-! ## Observations -/

structure Observation where
  absoluteScore : ℚ
  percentile : ℚ
  validSamples : Nat

/-- Valid numbers and enough samples. -/
structure Observation.Valid (observation : Observation) (policy : TierPolicy) : Prop where
  absoluteScore : InUnitInterval observation.absoluteScore
  percentile : InUnitInterval observation.percentile
  samples : policy.minimumSamples ≤ observation.validSamples

variable (policy) in
def classifyObservation (current : PerformanceTier) (observation : Observation) :
    Except TierError TierResult :=
  policy.classify current observation.absoluteScore observation.percentile
    observation.validSamples

variable (policy) in
/-- The tier after some observations, one after the other. -/
def observe (current : PerformanceTier) (observations : List Observation) :
    Except TierError PerformanceTier :=
  observations.foldlM
    (fun tier observation => (policy.classifyObservation tier observation).map (·.tier)) current

theorem observe_cons (h : policy.validate = .ok ()) {observation : Observation}
    (hvalid : observation.Valid policy) (tier : PerformanceTier) (rest : List Observation) :
    policy.observe tier (observation :: rest) = policy.observe
      (policy.settle tier observation.absoluteScore observation.percentile).1 rest := by
  rw [observe, List.foldlM_cons, classifyObservation,
    classify_eq h hvalid.absoluteScore hvalid.percentile hvalid.samples]
  rfl

/-- A tier that every observation keeps is kept over all of them. -/
theorem observe_stays (h : policy.validate = .ok ()) {tier : PerformanceTier}
    {observations : List Observation} (hvalid : ∀ observation ∈ observations,
      observation.Valid policy)
    (hstays : ∀ observation ∈ observations,
      (policy.settle tier observation.absoluteScore observation.percentile).1 = tier) :
    policy.observe tier observations = .ok tier := by
  induction observations with
  | nil => rfl
  | cons observation rest ih =>
      rw [List.forall_mem_cons] at hvalid hstays
      rw [observe_cons h hvalid.1, hstays.1]
      exact ih hvalid.2 hstays.2

/-- The hysteresis. The classification is monotone, it never skips the medium tier, it comes to
rest after two steps, and a tier that has been reached is kept on its side of the exit. -/
theorem classify_hysteresis (h : policy.validate = .ok ()) :
    (∀ (a b : Observation) (current current' : PerformanceTier), a.Valid policy →
      b.Valid policy → current.rank ≤ current'.rank → a.absoluteScore ≤ b.absoluteScore →
      a.percentile ≤ b.percentile → ∃ low high, policy.classifyObservation current a = .ok low ∧
        policy.classifyObservation current' b = .ok high ∧ low.tier.rank ≤ high.tier.rank) ∧
    (∀ (observation : Observation) (current : PerformanceTier) (result : TierResult),
      observation.Valid policy → policy.classifyObservation current observation = .ok result →
        ¬(current = .high ∧ result.tier = .low) ∧ ¬(current = .low ∧ result.tier = .high)) ∧
    (∀ (observation : Observation) (current : PerformanceTier), observation.Valid policy →
      ∃ tier, policy.observe current [observation, observation] = .ok tier ∧
        ∀ repetitions, policy.observe tier (List.replicate repetitions observation) = .ok tier) ∧
    (∀ (first : Observation) (current : PerformanceTier) (result : TierResult)
      (rest : List Observation), policy.classifyObservation current first = .ok result →
      (∀ observation ∈ rest, observation.Valid policy) →
      (result.tier = .high → (∀ observation ∈ rest, policy.highExit ≤ observation.absoluteScore) →
        policy.observe result.tier rest = .ok .high) ∧
      (result.tier = .low → (∀ observation ∈ rest, observation.absoluteScore ≤ policy.lowExit) →
        policy.observe result.tier rest = .ok .low)) := by
  have hordered := ordered_of_validate h
  have hclassify : ∀ (observation : Observation) (current : PerformanceTier),
      observation.Valid policy → policy.classifyObservation current observation =
        .ok ⟨(policy.settle current observation.absoluteScore observation.percentile).1, false,
          (policy.settle current observation.absoluteScore observation.percentile).2⟩ :=
    fun observation current hvalid =>
      classify_eq h hvalid.absoluteScore hvalid.percentile hvalid.samples current
  refine ⟨fun a b current current' ha hb hcurrent hscore hpercentile =>
      ⟨_, _, hclassify a current ha, hclassify b current' hb,
        hordered.settle_mono hcurrent hscore hpercentile⟩,
    fun observation current result hvalid hresult => ?_, fun observation current hvalid => ?_,
    fun first current result rest _ hvalid => ⟨fun htier hexit => ?_, fun htier hexit => ?_⟩⟩
  · rw [hclassify observation current hvalid] at hresult
    cases hresult
    constructor
    · rintro ⟨rfl, hlow⟩
      rcases hordered.settle_eq_low.mp hlow with ⟨hcurrent, -⟩ | ⟨hcurrent, -⟩ <;> cases hcurrent
    · rintro ⟨rfl, hhigh⟩
      rcases settle_eq_high.mp hhigh with ⟨hcurrent, -⟩ | ⟨hcurrent, -⟩ <;> cases hcurrent
  · refine ⟨(policy.settle (policy.settle current observation.absoluteScore
      observation.percentile).1 observation.absoluteScore observation.percentile).1, ?_,
      fun repetitions => observe_stays h (fun other hother => ?_) fun other hother => ?_⟩
    · rw [observe_cons h hvalid, observe_cons h hvalid]
      rfl
    · exact (List.eq_of_mem_replicate hother) ▸ hvalid
    · rw [List.eq_of_mem_replicate hother]
      exact hordered.settle_twice
  · rw [htier]
    exact observe_stays h hvalid fun observation hmem =>
      settle_eq_high.mpr (.inl ⟨rfl, hexit observation hmem⟩)
  · rw [htier]
    exact observe_stays h hvalid fun observation hmem =>
      hordered.settle_eq_low.mpr (.inl ⟨rfl, hexit observation hmem⟩)

/-- With the default policy a rank helps a model into the high tier, which it keeps. -/
theorem classify_hysteresis_sample :
    TierPolicy.default.validate = .ok () ∧
    TierPolicy.default.classifyObservation .medium ⟨78 / 100, 85 / 100, 100⟩ =
      .ok ⟨.high, false, true⟩ ∧
    TierPolicy.default.observe .high [⟨73 / 100, 1 / 10, 100⟩, ⟨72 / 100, 0, 100⟩] =
      .ok .high := by
  have hvalid : TierPolicy.default.validate = .ok () := by decide +kernel
  have hrisen : TierPolicy.default.classifyObservation .medium ⟨78 / 100, 85 / 100, 100⟩ =
      .ok ⟨.high, false, true⟩ := by decide +kernel
  refine ⟨hvalid, hrisen, ((classify_hysteresis hvalid).2.2.2 _ _ _ _ hrisen ?_).1 rfl ?_⟩
  · intro observation hmem
    simp only [List.mem_cons, List.not_mem_nil, or_false] at hmem
    rcases hmem with rfl | rfl
    · exact ⟨by decide +kernel, by decide +kernel, by decide⟩
    · exact ⟨by decide +kernel, by decide +kernel, by decide⟩
  · intro observation hmem
    simp only [List.mem_cons, List.not_mem_nil, or_false] at hmem
    rcases hmem with rfl | rfl <;> decide +kernel

end TierPolicy

end MindOne.Accounting
