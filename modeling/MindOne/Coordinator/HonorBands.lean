import MindOne.Coordinator.Ledgers
import MindOne.Lib.CheckedArithmetic
import Mathlib.Algebra.BigOperators.Group.List.Basic
import Mathlib.Algebra.Order.BigOperators.Group.List
import Mathlib.Data.List.Infix

/-!
# The bands of the network honor leaderboard

Nodes with equal contributions form a group, and the groups are scanned from the lowest
contribution up. A group belongs to the top percent if its midrank does. Midranks
grow along the scan, so the groups of a band are the last ones, and no group is split.
The counts are published in coarse steps.
-/

namespace MindOne.Coordinator

open CheckedArithmetic

def contributionRankPrivacyThreshold : Int := 5
def networkHonorCountGranularity : Int := 5
def networkHonorAggregationVersion : String := "network-honor-v1"

inductive NetworkHonorLabel where
  | top1Percent | top5Percent | top10Percent | top25Percent | top50Percent
  | contributor
  | zeroFailure100Days
  deriving DecidableEq, Repr

inductive NetworkHonorTiePolicy where
  | midrankSharedBand
  deriving DecidableEq, Repr

structure NetworkHonorLeaderboardEntry where
  label : NetworkHonorLabel
  qualifyingNodesLowerBound : Int
  deriving DecidableEq, Repr

structure NetworkHonorLeaderboard where
  aggregationVersion : String
  privacyThreshold : Int
  cohortNodes : Int
  countGranularity : Int
  suppressed : Bool
  tiePolicy : NetworkHonorTiePolicy
  entries : List NetworkHonorLeaderboardEntry
  deriving DecidableEq

def checkedI64 (value : Int) : ApiResult Int :=
  if Fits 64 value then .ok value else .error .internal

def saturatingAddI64 (a b : Int) : Int := max (-2 ^ 63) (min (2 ^ 63 - 1) (a + b))

/-- A product of 128 bits, which would panic beyond its range. -/
def productI128 (a b : Int) : ApiResult Int :=
  if Fits 128 (a * b) then .ok (a * b) else .error .internal

/-- The nodes below the next group, and those that qualify. -/
structure RankScan where
  lowerNodes : Int
  qualifyingNodes : Int
  deriving DecidableEq

section Scan
variable (cohortNodes topPercent : Int)

def twiceMidrankNumerator (lowerNodes tiedNodes : Int) : ApiResult Int := do
  let doubled ← checkedI64 (lowerNodes * 2)
  let raised ← checkedI64 (doubled + tiedNodes)
  checkedI64 (raised - 1)

def twiceMidrankDenominator : ApiResult Int := do
  let others ← checkedI64 (cohortNodes - 1)
  checkedI64 (others * 2)

def addQualifying (qualifies : Bool) (qualifyingNodes tiedNodes : Int) : ApiResult Int :=
  if qualifies then checkedI64 (qualifyingNodes + tiedNodes) else .ok qualifyingNodes

def RankScan.step (scan : RankScan) (tiedNodes : Int) : ApiResult RankScan := do
  rejectIf (tiedNodes ≤ 0 ∨ cohortNodes < saturatingAddI64 scan.lowerNodes tiedNodes) .internal
  let numerator ← twiceMidrankNumerator scan.lowerNodes tiedNodes
  let denominator ← twiceMidrankDenominator cohortNodes
  let reached ← productI128 numerator 100
  let required ← productI128 denominator (100 - topPercent)
  let qualifyingNodes ← addQualifying (required ≤ reached) scan.qualifyingNodes tiedNodes
  let lowerNodes ← checkedI64 (scan.lowerNodes + tiedNodes)
  return ⟨lowerNodes, qualifyingNodes⟩

def topRankedNodes (contributionTieGroups : List Int) : ApiResult Int := do
  rejectIf (cohortNodes < contributionRankPrivacyThreshold ∨ ¬(1 ≤ topPercent ∧ topPercent ≤ 100))
    .internal
  let scan ← contributionTieGroups.foldlM (RankScan.step cohortNodes topPercent) ⟨0, 0⟩
  rejectIf (scan.lowerNodes ≠ cohortNodes) .internal
  return scan.qualifyingNodes

end Scan

def pushQuantizedHonorEntry (entries : List NetworkHonorLeaderboardEntry)
    (label : NetworkHonorLabel) (exactNodes : Int) :
    ApiResult (List NetworkHonorLeaderboardEntry) := do
  rejectIf (exactNodes < 0) .internal
  let lowerBound := exactNodes.tdiv networkHonorCountGranularity * networkHonorCountGranularity
  if contributionRankPrivacyThreshold ≤ lowerBound then do
    rejectIf (lowerBound < 0) .internal
    return entries ++ [⟨label, lowerBound⟩]
  else return entries

section Leaderboard
variable (cohortNodes : Int) (contributionTieGroups : List Int) (zeroFailure100DaysNodes : Int)

def checkedTotal : Option Int :=
  contributionTieGroups.foldlM
    (fun total count => if Fits 64 (total + count) then some (total + count) else none) 0

def honorBands : List (NetworkHonorLabel × Int) :=
  [(.top1Percent, 1), (.top5Percent, 5), (.top10Percent, 10), (.top25Percent, 25),
    (.top50Percent, 50)]

def pushBand (entries : List NetworkHonorLeaderboardEntry) (band : NetworkHonorLabel × Int) :
    ApiResult (List NetworkHonorLeaderboardEntry) := do
  let qualifying ← topRankedNodes cohortNodes band.2 contributionTieGroups
  pushQuantizedHonorEntry entries band.1 qualifying

def networkHonorLeaderboard : ApiResult NetworkHonorLeaderboard := do
  rejectIf (cohortNodes < 0 ∨ zeroFailure100DaysNodes < 0 ∨ cohortNodes < zeroFailure100DaysNodes ∨
      (∃ count ∈ contributionTieGroups, count ≤ 0) ∨
      checkedTotal contributionTieGroups ≠ some cohortNodes) .internal
  if cohortNodes < contributionRankPrivacyThreshold then
    return ⟨networkHonorAggregationVersion, contributionRankPrivacyThreshold, 0,
      networkHonorCountGranularity, true, .midrankSharedBand, []⟩
  else do
    let entries ← honorBands.foldlM (pushBand cohortNodes contributionTieGroups) []
    let entries ← pushQuantizedHonorEntry entries .contributor cohortNodes
    let entries ← pushQuantizedHonorEntry entries .zeroFailure100Days zeroFailure100DaysNodes
    return ⟨networkHonorAggregationVersion, contributionRankPrivacyThreshold, cohortNodes,
      networkHonorCountGranularity, false, .midrankSharedBand, entries⟩

/-- The count that stands behind an entry. -/
def exactQualifyingNodes : NetworkHonorLabel → ApiResult Int
  | .top1Percent => topRankedNodes cohortNodes 1 contributionTieGroups
  | .top5Percent => topRankedNodes cohortNodes 5 contributionTieGroups
  | .top10Percent => topRankedNodes cohortNodes 10 contributionTieGroups
  | .top25Percent => topRankedNodes cohortNodes 25 contributionTieGroups
  | .top50Percent => topRankedNodes cohortNodes 50 contributionTieGroups
  | .contributor => .ok cohortNodes
  | .zeroFailure100Days => .ok zeroFailure100DaysNodes

end Leaderboard

example : (networkHonorLeaderboard 10 (List.replicate 10 1) 7).toOption.map (·.entries) =
    some [⟨.top50Percent, 5⟩, ⟨.contributor, 10⟩, ⟨.zeroFailure100Days, 5⟩] := by decide +kernel

end MindOne.Coordinator
