import MindOne.Lib.CheckedArithmetic
import Mathlib.Order.WithBot

/-!
# The deterministic decision on abuse

Four signals add points to a score and, all but the one of the autonomous system, raise
a category of risk. Some of them block at once, two categories with enough points block
as well. The score is the capped sum of points that grow with each signal, so more
risk never looks safer.
-/

namespace MindOne.AntiAbuse

open CheckedArithmetic

def deviceBlockUsers : Int := 3
def ipPrefixSharedUsers : Int := 3
def ipPrefixLargeSharedUsers : Int := 5
def asnSharedUsers : Int := 10
def asnLargeSharedUsers : Int := 25
def reciprocalBlockRequests : Int := 10

structure RiskCounts where
  deviceUserCount : Option Int
  ipUserCount : Option Int
  asnUserCount : Option Int
  reciprocalEdgeRequests : Int
  requireNetworkSignal : Bool

inductive AntiAbuseDisposition where
  | allow | block
  deriving DecidableEq, Repr

structure AntiAbuseDecision where
  disposition : AntiAbuseDisposition
  riskScorePpm : Int
  contributionWeightPpm : Int
  reasonCodes : List String
  deriving DecidableEq

/-- What the four signals have added up to so far. -/
structure RiskState where
  riskScorePpm : Int
  independentRiskCategories : Nat
  reasonCodes : List String

/-- The additions that the decision makes. -/
structure RiskArithmetic where
  addScore : Int → Int → Int
  addCategory : Nat → Nat

def saturatingAddI32 (a b : Int) : Int :=
  if a + b < -2147483648 then -2147483648 else if 2147483647 < a + b then 2147483647 else a + b

def saturatingIncrementU8 (n : Nat) : Nat := if 255 < n + 1 then 255 else n + 1

def saturating : RiskArithmetic := ⟨saturatingAddI32, saturatingIncrementU8⟩

/-- Sums without a bound. -/
def unbounded : RiskArithmetic := ⟨(· + ·), (· + 1)⟩

namespace RiskState
variable (arithmetic : RiskArithmetic) (state : RiskState)

def assign (reasonCode : String) : RiskState :=
  { state with riskScorePpm := 1000000, reasonCodes := state.reasonCodes ++ [reasonCode] }

/-- A signal that is not a category of its own. -/
def weaken (points : Int) (reasonCode : String) : RiskState :=
  { state with
    riskScorePpm := min (arithmetic.addScore state.riskScorePpm points) 1000000
    reasonCodes := state.reasonCodes ++ [reasonCode] }

def raise (points : Int) (reasonCode : String) : RiskState :=
  { state with
    riskScorePpm := min (arithmetic.addScore state.riskScorePpm points) 1000000
    independentRiskCategories := arithmetic.addCategory state.independentRiskCategories
    reasonCodes := state.reasonCodes ++ [reasonCode] }

end RiskState

section Signals
variable (arithmetic : RiskArithmetic) (counts : RiskCounts) (state : RiskState)

def reaches (count : Option Int) (threshold : Int) : Prop := ∃ n, count = some n ∧ threshold ≤ n

instance (count : Option Int) (threshold : Int) : Decidable (reaches count threshold) :=
  match count with
  | none => .isFalse (by simp [reaches])
  | some n => decidable_of_iff (threshold ≤ n) (by simp [reaches])

/-- The sum of a shared device is not capped, as it is the first one. -/
def assessDevice : RiskState :=
  if counts.deviceUserCount = none then state.assign "missing_device_signal"
  else if reaches counts.deviceUserCount deviceBlockUsers then state.assign "device_sybil_cluster"
  else if counts.deviceUserCount = some 2 then
    { state with
      riskScorePpm := arithmetic.addScore state.riskScorePpm 350000
      independentRiskCategories := arithmetic.addCategory state.independentRiskCategories
      reasonCodes := state.reasonCodes ++ ["shared_device"] }
  else state

def assessNetwork : RiskState :=
  if counts.requireNetworkSignal ∧ counts.ipUserCount = none then
    state.assign "missing_network_signal"
  else if reaches counts.ipUserCount ipPrefixLargeSharedUsers then
    state.raise arithmetic 400000 "large_shared_ip_prefix"
  else if reaches counts.ipUserCount ipPrefixSharedUsers then
    state.raise arithmetic 250000 "shared_ip_prefix"
  else state

def assessAsn : RiskState :=
  if counts.asnUserCount = none then
    { state with reasonCodes := state.reasonCodes ++ ["asn_signal_unavailable"] }
  else if reaches counts.asnUserCount asnLargeSharedUsers then
    state.weaken arithmetic 200000 "large_shared_asn"
  else if reaches counts.asnUserCount asnSharedUsers then
    state.weaken arithmetic 100000 "shared_asn_cluster"
  else state

def assessReciprocal : RiskState :=
  if reciprocalBlockRequests ≤ counts.reciprocalEdgeRequests then
    state.assign "reciprocal_call_loop"
  else if 5 ≤ counts.reciprocalEdgeRequests then
    state.raise arithmetic 350000 "emerging_reciprocal_loop"
  else state

end Signals

def RiskCounts.HardBlock (counts : RiskCounts) : Prop :=
  counts.deviceUserCount = none ∨ reaches counts.deviceUserCount deviceBlockUsers ∨
    counts.requireNetworkSignal ∧ counts.ipUserCount = none ∨
    reciprocalBlockRequests ≤ counts.reciprocalEdgeRequests

instance (counts : RiskCounts) : Decidable counts.HardBlock :=
  inferInstanceAs (Decidable (_ ∨ _ ∨ _ ∧ _ ∨ _))

def contributionWeightPpm (disposition : AntiAbuseDisposition) (riskScorePpm : Int) : Int :=
  match disposition with
  | .block => 0
  | .allow => if 250000 ≤ riskScorePpm then 500000 else 1000000

/-- The decision with some arithmetic. -/
def decisionWith (arithmetic : RiskArithmetic) (counts : RiskCounts) : AntiAbuseDecision :=
  let state := assessReciprocal arithmetic counts <| assessAsn arithmetic counts <|
    assessNetwork arithmetic counts <| assessDevice arithmetic counts ⟨0, 0, []⟩
  let corroboratedBlock := 2 ≤ state.independentRiskCategories ∧ 700000 ≤ state.riskScorePpm
  let disposition := if counts.HardBlock ∨ corroboratedBlock then .block else .allow
  ⟨disposition, state.riskScorePpm, contributionWeightPpm disposition state.riskScorePpm,
    state.reasonCodes⟩

def deterministicDecision (counts : RiskCounts) : AntiAbuseDecision :=
  decisionWith saturating counts

/-! ## Points and categories -/

section Points
variable (counts : RiskCounts)

def devicePoints : Int :=
  if counts.deviceUserCount = none ∨ reaches counts.deviceUserCount deviceBlockUsers then 1000000
  else if counts.deviceUserCount = some 2 then 350000 else 0

def networkPoints : Int :=
  if counts.requireNetworkSignal ∧ counts.ipUserCount = none then 1000000
  else if reaches counts.ipUserCount ipPrefixLargeSharedUsers then 400000
  else if reaches counts.ipUserCount ipPrefixSharedUsers then 250000 else 0

def asnPoints : Int :=
  if reaches counts.asnUserCount asnLargeSharedUsers then 200000
  else if reaches counts.asnUserCount asnSharedUsers then 100000 else 0

def reciprocalPoints : Int :=
  if reciprocalBlockRequests ≤ counts.reciprocalEdgeRequests then 1000000
  else if 5 ≤ counts.reciprocalEdgeRequests then 350000 else 0

/-- The categories that are raised when nothing blocks at once. -/
def categories : Nat :=
  (if counts.deviceUserCount = some 2 then 1 else 0) +
    (if reaches counts.ipUserCount ipPrefixSharedUsers then 1 else 0) +
    (if 5 ≤ counts.reciprocalEdgeRequests ∧
      counts.reciprocalEdgeRequests < reciprocalBlockRequests then 1 else 0)

def totalPoints : Int :=
  devicePoints counts + networkPoints counts + asnPoints counts + reciprocalPoints counts

end Points

theorem reaches_mono {count : Option Int} {low high : Int} (h : reaches count high)
    (hle : low ≤ high) : reaches count low := by
  obtain ⟨n, hn, hhigh⟩ := h
  exact ⟨n, hn, hle.trans hhigh⟩

section Stages
variable (counts : RiskCounts) {state : RiskState}

/-- A score within its range and no more categories than signals so far. -/
structure RiskState.Bounded (state : RiskState) (signals : Nat) : Prop where
  nonneg : 0 ≤ state.riskScorePpm
  capped : state.riskScorePpm ≤ 1000000
  categories : state.independentRiskCategories ≤ signals

theorem saturatingAddI32_eq {a b : Int} (ha : 0 ≤ a) (ha' : a ≤ 1000000) (hb : 0 ≤ b)
    (hb' : b ≤ 1000000) : saturatingAddI32 a b = a + b := by
  simp only [saturatingAddI32]
  split
  · omega
  · split <;> omega

theorem saturatingIncrementU8_eq {n : Nat} (h : n < 255) : saturatingIncrementU8 n = n + 1 :=
  if_neg (by omega)

theorem cap_assign {score : Int} (h : 0 ≤ score) : min (score + 1000000) 1000000 = 1000000 :=
  min_eq_right (by omega)

theorem cap_zero {score : Int} (h : score ≤ 1000000) : min (score + 0) 1000000 = score := by
  rw [add_zero, min_eq_left h]

theorem assessDevice_score :
    (assessDevice unbounded counts ⟨0, 0, []⟩).riskScorePpm = devicePoints counts ∧
    (assessDevice unbounded counts ⟨0, 0, []⟩).independentRiskCategories =
      if counts.deviceUserCount = some 2 then 1 else 0 := by
  cases hdevice : counts.deviceUserCount with
  | none => simp [assessDevice, devicePoints, hdevice, RiskState.assign]
  | some n =>
      by_cases hblock : reaches counts.deviceUserCount deviceBlockUsers
      · have htwo : n ≠ 2 := by
          obtain ⟨m, hm, hle⟩ := hblock
          rw [hdevice, Option.some.injEq] at hm
          rw [deviceBlockUsers] at hle
          omega
        rw [hdevice] at hblock
        simp [assessDevice, devicePoints, hdevice, hblock, htwo, RiskState.assign]
      · rw [hdevice] at hblock
        by_cases htwo : n = 2
        · subst htwo
          simp [assessDevice, devicePoints, hdevice, hblock, unbounded]
        · simp [assessDevice, devicePoints, hdevice, hblock, htwo]

theorem assessNetwork_score (h : 0 ≤ state.riskScorePpm) (hcap : state.riskScorePpm ≤ 1000000) :
    (assessNetwork unbounded counts state).riskScorePpm =
      min (state.riskScorePpm + networkPoints counts) 1000000 ∧
    (assessNetwork unbounded counts state).independentRiskCategories =
      state.independentRiskCategories +
        if reaches counts.ipUserCount ipPrefixSharedUsers then 1 else 0 := by
  simp only [assessNetwork, networkPoints]
  split
  · next hmissing =>
      have hnone : ¬reaches counts.ipUserCount ipPrefixSharedUsers := by
        rintro ⟨n, hn, -⟩
        rw [hmissing.2] at hn
        cases hn
      rw [if_neg hnone]
      exact ⟨(cap_assign h).symm, rfl⟩
  · split
    · next hlarge =>
        rw [if_pos (reaches_mono hlarge (by decide))]
        exact ⟨rfl, rfl⟩
    · split
      · exact ⟨rfl, rfl⟩
      · exact ⟨(cap_zero hcap).symm, rfl⟩

theorem assessAsn_score (hcap : state.riskScorePpm ≤ 1000000) :
    (assessAsn unbounded counts state).riskScorePpm =
      min (state.riskScorePpm + asnPoints counts) 1000000 ∧
    (assessAsn unbounded counts state).independentRiskCategories =
      state.independentRiskCategories := by
  simp only [assessAsn, asnPoints]
  split
  · next hnone =>
      have hreaches : ∀ threshold, ¬reaches counts.asnUserCount threshold := by
        rintro threshold ⟨n, hn, -⟩
        rw [hnone] at hn
        cases hn
      rw [if_neg (hreaches _), if_neg (hreaches _)]
      exact ⟨(cap_zero hcap).symm, rfl⟩
  · split
    · exact ⟨rfl, rfl⟩
    · split
      · exact ⟨rfl, rfl⟩
      · exact ⟨(cap_zero hcap).symm, rfl⟩

theorem assessReciprocal_score (h : 0 ≤ state.riskScorePpm)
    (hcap : state.riskScorePpm ≤ 1000000) :
    (assessReciprocal unbounded counts state).riskScorePpm =
      min (state.riskScorePpm + reciprocalPoints counts) 1000000 ∧
    (assessReciprocal unbounded counts state).independentRiskCategories =
      state.independentRiskCategories +
        if 5 ≤ counts.reciprocalEdgeRequests ∧
          counts.reciprocalEdgeRequests < reciprocalBlockRequests then 1 else 0 := by
  simp only [assessReciprocal, reciprocalPoints]
  split
  · rw [if_neg (by omega)]
    exact ⟨(cap_assign h).symm, rfl⟩
  · split
    · rw [if_pos (by omega)]
      exact ⟨rfl, rfl⟩
    · rw [if_neg (by omega)]
      exact ⟨(cap_zero hcap).symm, rfl⟩

theorem points_bounds :
    (0 ≤ devicePoints counts ∧ devicePoints counts ≤ 1000000) ∧ 0 ≤ networkPoints counts ∧
      0 ≤ asnPoints counts ∧ 0 ≤ reciprocalPoints counts := by
  simp only [devicePoints, networkPoints, asnPoints, reciprocalPoints]
  refine ⟨?_, ?_, ?_, ?_⟩
  · split
    · omega
    · split <;> omega
  · split
    · omega
    · split
      · omega
      · split <;> omega
  · split
    · omega
    · split <;> omega
  · split
    · omega
    · split <;> omega

namespace RiskState.Bounded
variable {signals : Nat} {points : Int}

theorem add_eq (h : state.Bounded signals) (hpoints : 0 ≤ points) (hpoints' : points ≤ 1000000) :
    saturating.addScore state.riskScorePpm points =
      unbounded.addScore state.riskScorePpm points :=
  saturatingAddI32_eq h.nonneg h.capped hpoints hpoints'

theorem raise_eq (h : state.Bounded signals) (hsignals : signals < 255) (hpoints : 0 ≤ points)
    (hpoints' : points ≤ 1000000) (reasonCode : String) :
    state.raise saturating points reasonCode = state.raise unbounded points reasonCode := by
  have hcategory : saturating.addCategory state.independentRiskCategories =
      unbounded.addCategory state.independentRiskCategories :=
    saturatingIncrementU8_eq (h.categories.trans_lt hsignals)
  rw [RiskState.raise, RiskState.raise, h.add_eq hpoints hpoints', hcategory]

theorem weaken_eq (h : state.Bounded signals) (hpoints : 0 ≤ points) (hpoints' : points ≤ 1000000)
    (reasonCode : String) :
    state.weaken saturating points reasonCode = state.weaken unbounded points reasonCode := by
  rw [RiskState.weaken, RiskState.weaken, h.add_eq hpoints hpoints']

theorem network (h : state.Bounded signals) :
    (assessNetwork unbounded counts state).Bounded (signals + 1) := by
  obtain ⟨hscore, hcategories⟩ := assessNetwork_score counts h.nonneg h.capped
  obtain ⟨-, hpoints, -⟩ := points_bounds counts
  have hnonneg := h.nonneg
  have hold := h.categories
  refine ⟨by omega, by omega, ?_⟩
  rw [hcategories]
  split <;> omega

theorem asn (h : state.Bounded signals) :
    (assessAsn unbounded counts state).Bounded signals := by
  obtain ⟨hscore, hcategories⟩ := assessAsn_score counts h.capped
  obtain ⟨-, -, hpoints, -⟩ := points_bounds counts
  have hnonneg := h.nonneg
  exact ⟨by omega, by omega, hcategories ▸ h.categories⟩

end RiskState.Bounded

theorem assessDevice_bounded : (assessDevice unbounded counts ⟨0, 0, []⟩).Bounded 1 := by
  obtain ⟨hscore, hcategories⟩ := assessDevice_score counts
  obtain ⟨⟨hpoints, hpoints'⟩, -⟩ := points_bounds counts
  refine ⟨by omega, by omega, ?_⟩
  rw [hcategories]
  split <;> omega

end Stages

/-- No sum of the decision saturates. -/
theorem decisionWith_saturating (counts : RiskCounts) :
    decisionWith saturating counts = decisionWith unbounded counts := by
  have hdevice : assessDevice saturating counts ⟨0, 0, []⟩ =
      assessDevice unbounded counts ⟨0, 0, []⟩ := by
    simp only [assessDevice]
    rfl
  have hone : (assessDevice unbounded counts ⟨0, 0, []⟩).Bounded 1 :=
    assessDevice_bounded counts
  have hnetwork : ∀ state : RiskState, state.Bounded 1 →
      assessNetwork saturating counts state = assessNetwork unbounded counts state := by
    intro state h
    simp only [assessNetwork, h.raise_eq (by decide : 1 < 255) (by decide : (0 : Int) ≤ 400000)
      (by decide), h.raise_eq (by decide : 1 < 255) (by decide : (0 : Int) ≤ 250000) (by decide)]
  have hasn : ∀ state : RiskState, state.Bounded 2 →
      assessAsn saturating counts state = assessAsn unbounded counts state := by
    intro state h
    simp only [assessAsn, h.weaken_eq (by decide : (0 : Int) ≤ 200000) (by decide),
      h.weaken_eq (by decide : (0 : Int) ≤ 100000) (by decide)]
  have hreciprocal : ∀ state : RiskState, state.Bounded 2 →
      assessReciprocal saturating counts state = assessReciprocal unbounded counts state := by
    intro state h
    simp only [assessReciprocal, h.raise_eq (by decide : 2 < 255) (by decide : (0 : Int) ≤ 350000)
      (by decide)]
  have htwo := hone.network counts
  rw [decisionWith, hdevice, hnetwork _ hone, hasn _ htwo, hreciprocal _ (htwo.asn counts)]
  rfl

/-- The decision in terms of the points and the categories. -/
theorem deterministicDecision_eq (counts : RiskCounts) :
    (deterministicDecision counts).riskScorePpm = min (totalPoints counts) 1000000 ∧
    ((deterministicDecision counts).disposition = .block ↔
      counts.HardBlock ∨ 2 ≤ categories counts ∧ 700000 ≤ totalPoints counts) ∧
    (deterministicDecision counts).contributionWeightPpm = contributionWeightPpm
      (deterministicDecision counts).disposition (deterministicDecision counts).riskScorePpm := by
  obtain ⟨hdevice, hdevice'⟩ := assessDevice_score counts
  have hone : (assessDevice unbounded counts ⟨0, 0, []⟩).Bounded 1 :=
    assessDevice_bounded counts
  obtain ⟨hnetwork, hnetwork'⟩ := assessNetwork_score counts hone.nonneg hone.capped
  have htwo := hone.network counts
  obtain ⟨hasn, hasn'⟩ := assessAsn_score counts htwo.capped
  have hthree := htwo.asn counts
  obtain ⟨hreciprocal, hreciprocal'⟩ :=
    assessReciprocal_score counts hthree.nonneg hthree.capped
  obtain ⟨⟨hd, hd'⟩, hn, ha, hr⟩ := points_bounds counts
  have hscore : (decisionWith unbounded counts).riskScorePpm = min (totalPoints counts) 1000000 := by
    simp only [decisionWith, totalPoints]
    omega
  rw [deterministicDecision, decisionWith_saturating]
  refine ⟨hscore, ?_, rfl⟩
  have hcategories : (assessReciprocal unbounded counts (assessAsn unbounded counts
      (assessNetwork unbounded counts (assessDevice unbounded counts ⟨0, 0, []⟩)))
      ).independentRiskCategories = categories counts := by
    rw [hreciprocal', hasn', hnetwork', hdevice', categories]
  simp only [decisionWith] at hscore ⊢
  rw [hcategories, hscore]
  split
  · next hblock => simpa using hblock.imp_right fun h => ⟨h.1, by omega⟩
  · next hallow =>
      simp only [reduceCtorEq, false_iff]
      exact fun hblock => hallow (hblock.imp_right fun h => ⟨h.1, by omega⟩)

end MindOne.AntiAbuse
