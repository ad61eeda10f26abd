import MindOne.Lib.PgNumeric
import MindOne.Accounting.ContributionRouting
import MindOne.Coordinator.State

/-!
# The node selected by the claim query

The claim query ranks the eligible nodes of a job inside the database, with
window functions over the cohort, and offers the job to the first row. The same
ranking exists as a function of the accounting crate. The query takes its
percentile out of a decimal quotient; the main result is that the two orders
are one up to the cohort size at which that decimal can reach the next integer.
-/

namespace MindOne.Coordinator

open CheckedArithmetic Accounting Database PgNumeric

/-- A row of `node_cohort`: one instance of each eligible node. -/
structure CohortRow where
  modelInstanceId : Uuid
  nodeId : Uuid
  routingScore : Int
  serverFreeSlots : Nat
  contributionMicro : Int
  activeCount : Int
  tpsMilli : Int
  deriving DecidableEq, Repr

section Query
variable (speedClass : SpeedClass) (cohort : List CohortRow) (readyDemand : Nat)

def serverFreeSlotsTotal : Nat := (cohort.map (·.serverFreeSlots)).sum

def bestRoutingScore : Int := (cohort.map (·.routingScore)).max?.getD 0

/-- `RANK() OVER (ORDER BY contribution_micro)`. -/
def contributionRank (row : CohortRow) : Nat :=
  cohort.countP (·.contributionMicro < row.contributionMicro) + 1

/-- `COUNT(*) OVER (PARTITION BY contribution_micro)`. -/
def contributionPeers (row : CohortRow) : Nat :=
  cohort.countP (·.contributionMicro = row.contributionMicro)

/-- The percentile; a quotient by null is null. -/
def contributionPercentilePpm (row : CohortRow) : Option Int :=
  let numerator : Int := (2 * ((contributionRank cohort row : Int) - 1) +
    ((contributionPeers cohort row : Int) - 1)) * contributionRoutingPercentileScale
  let denominator : Int := 2 * ((cohort.length : Int) - 1)
  if denominator = 0 then none else some (divide numerator denominator).floor

/-- The third sort key. Products of the query are 64-bit words. -/
def contributionKey (row : CohortRow) : SqlResult (Option Int) :=
  if contributionRoutingMinCohort ≤ cohort.length ∧
      readyDemand > serverFreeSlotsTotal cohort then do
    let score ← toBigint (row.routingScore * contributionRoutingNearBestDenominator)
    let best ← toBigint (bestRoutingScore cohort * contributionRoutingNearBestNumerator)
    return if score ≥ best then contributionPercentilePpm cohort row else none
  else .ok none

/-- `DESC NULLS LAST`. -/
def descNullsLast : Option Int → Option Int → Ordering
  | some a, some b => compare b a
  | some _, none => .lt
  | none, some _ => .gt
  | none, none => .eq

/-- `ORDER BY`, over rows with their third key. -/
def cmpPrioritized (a b : CohortRow × Option Int) : Ordering :=
  (descNullsLast (if speedClass = .fast then some a.1.tpsMilli else none)
      (if speedClass = .fast then some b.1.tpsMilli else none)).then
    ((descNullsLast (if speedClass = .slow then some a.1.activeCount else none)
        (if speedClass = .slow then some b.1.activeCount else none)).then
      ((descNullsLast a.2 b.2).then
        ((compare b.1.routingScore a.1.routingScore).then
          ((compare a.1.nodeId.asU128.toNat b.1.nodeId.asU128.toNat).then
            (compare a.1.modelInstanceId.asU128.toNat b.1.modelInstanceId.asU128.toNat)))))

/-- The rows of `prioritized` in the order of the query. -/
def prioritized : SqlResult (List CohortRow) := do
  let keyed ← cohort.mapM fun row => do
    let key ← contributionKey cohort readyDemand row
    return (row, key)
  return (keyed.insertionSort fun a b => (cmpPrioritized speedClass a b).isLE = true).map
    Prod.fst

/-- Whether the row with `LIMIT 1` is the requesting node and instance. -/
def claimOffers (nodeId modelInstanceId : Uuid) : SqlResult Bool := do
  let rows ← prioritized speedClass cohort readyDemand
  return rows.head?.any fun selected =>
    selected.nodeId = nodeId ∧ selected.modelInstanceId = modelInstanceId

end Query

/-- A row of the cohort as a candidate of the accounting crate. -/
def CohortRow.candidate (row : CohortRow) : ContributionRoutingCandidate where
  id := row.nodeId.text
  baseScore := row.routingScore
  contributionMicro := row.contributionMicro

namespace CohortRow
variable (row : CohortRow)

@[simp] theorem candidate_id : row.candidate.id = row.nodeId.text := rfl

@[simp] theorem candidate_baseScore : row.candidate.baseScore = row.routingScore := rfl

@[simp] theorem candidate_contributionMicro :
    row.candidate.contributionMicro = row.contributionMicro := rfl

end CohortRow

/-- The largest cohort whose decimal percentiles are all exact. -/
def exactCohortSize : Nat := 2000000000001

section Percentiles
variable {n lower tied : Nat}

/-- The gap to the next percentile is even, and so never below two. -/
theorem percentile_gap {m d : Int} (hd : 0 < d) (hd' : d ≤ 2000000000000) :
    2 * d < 2 * 1000000000000 * (2 * d - m * 1000000 % (2 * d)) := by
  have hsplit := Int.mul_ediv_add_emod (m * 1000000) (2 * d)
  have hlt := Int.emod_lt_of_pos (m * 1000000) (show 0 < 2 * d by omega)
  set r := m * 1000000 % (2 * d) with hr
  set q := m * 1000000 / (2 * d) with hq
  rcases hd'.lt_or_eq with hsmall | rfl
  · -- both the dividend and the divisor are even
    have heven : 2 * d * q = 2 * (d * q) := mul_assoc 2 d q
    omega
  · omega

theorem floor_percentile (hn : contributionRoutingMinCohort ≤ n) (size : n ≤ exactCohortSize)
    (htied : 0 < tied) (hsum : lower + tied ≤ n) :
    (divide ((2 * (((lower + 1 : Nat) : Int) - 1) + ((tied : Int) - 1)) *
        contributionRoutingPercentileScale) (2 * ((n : Int) - 1))).floor =
      midrankPercentile n lower tied := by
  simp only [contributionRoutingMinCohort] at hn
  simp only [exactCohortSize] at size
  obtain ⟨m, hm⟩ : ∃ m : Nat, 2 * lower + tied - 1 = m := ⟨_, rfl⟩
  obtain ⟨d, hd⟩ : ∃ d : Nat, n - 1 = d := ⟨_, rfl⟩
  have hx : (2 * (((lower + 1 : Nat) : Int) - 1) + ((tied : Int) - 1)) *
      contributionRoutingPercentileScale = (m : Int) * 1000000 := by
    simp only [contributionRoutingPercentileScale]
    omega
  have hy : 2 * ((n : Int) - 1) = 2 * (d : Int) := by omega
  have hle : m ≤ 2 * d := by omega
  have hquot : m * 1000000 / (2 * d) ≤ 1000000 := by
    refine Nat.div_le_of_le_mul ?_
    exact Nat.mul_le_mul_right _ hle
  have hmid : midrankPercentile n lower tied = m * 1000000 / (2 * d) := by
    simp only [midrankPercentile, contributionRoutingPercentileScale, hm, hd]
    rw [if_pos (by omega)]
  rw [hx, hy, hmid]
  have hexact : (divide ((m : Int) * 1000000) (2 * (d : Int))).floor =
      (m : Int) * 1000000 / (2 * (d : Int)) := by
    rw [floor_divide_eq_iff (by positivity) (by omega)]
    rcases Nat.eq_zero_or_pos m with rfl | hpos
    · rw [Nat.cast_zero, zero_mul, Int.zero_emod, sub_zero]
      have hone := ten_pow_pos (divScale 0 (2 * (d : Int)))
      calc 2 * (d : Int) < 2 * 1 * (2 * (d : Int)) := by omega
        _ ≤ 2 * 10 ^ divScale 0 (2 * (d : Int)) * (2 * (d : Int)) :=
          mul_le_mul_of_nonneg_right (by omega) (by omega)
    · have hscale := le_divScale (x := (m : Int) * 1000000) (y := 2 * (d : Int)) (j := 2)
        (by omega) (by omega) (by omega)
      have hpow : (10 : Int) ^ 12 ≤ 10 ^ divScale ((m : Int) * 1000000) (2 * (d : Int)) :=
        pow_le_pow_right₀ (by norm_num) (by omega)
      have hgap := percentile_gap (m := m) (d := d) (by omega) (by omega)
      have hrem := Int.emod_lt_of_pos ((m : Int) * 1000000) (show 0 < 2 * (d : Int) by omega)
      refine hgap.trans_le (mul_le_mul_of_nonneg_right ?_ (by omega))
      norm_num at hpow
      omega
  rw [hexact]
  push_cast
  rfl

end Percentiles

section Agreement
variable {cohort : List CohortRow} {readyDemand : Nat}

theorem contributionPercentilePpm_eq {row : CohortRow} (hmem : row ∈ cohort)
    (hn : contributionRoutingMinCohort ≤ cohort.length)
    (size : cohort.length ≤ exactCohortSize) :
    contributionPercentilePpm cohort row = some (midrankPercentile cohort.length
      (cohort.countP (·.contributionMicro < row.contributionMicro))
      (cohort.countP (·.contributionMicro = row.contributionMicro)) : Int) := by
  have hnonzero : 2 * ((cohort.length : Int) - 1) ≠ 0 := by
    simp only [contributionRoutingMinCohort] at hn
    omega
  have htied : 0 < cohort.countP (·.contributionMicro = row.contributionMicro) :=
    List.countP_pos_iff.mpr ⟨row, hmem, by simp⟩
  have hsum : cohort.countP (·.contributionMicro < row.contributionMicro) +
      cohort.countP (·.contributionMicro = row.contributionMicro) ≤ cohort.length := by
    rw [List.length_eq_countP_add_countP (fun r : CohortRow =>
      decide (r.contributionMicro < row.contributionMicro))]
    refine Nat.add_le_add_left (List.countP_mono_left fun r _ heq => ?_) _
    simp only [decide_eq_true_eq] at heq ⊢
    omega
  have hfloor := floor_percentile hn size htied hsum
  simp only [contributionPercentilePpm, if_neg hnonzero]
  exact congrArg some hfloor

/-- The third sort key, with the percentile of the accounting crate. -/
def midrankKey (cohort : List CohortRow) (readyDemand : Nat) (row : CohortRow) : Option Nat :=
  if (contributionRoutingMinCohort ≤ cohort.length ∧
        serverFreeSlotsTotal cohort < readyDemand) ∧
      row.routingScore * contributionRoutingNearBestDenominator ≥
        bestRoutingScore cohort * contributionRoutingNearBestNumerator
  then some (midrankPercentile cohort.length
    (cohort.countP (·.contributionMicro < row.contributionMicro))
    (cohort.countP (·.contributionMicro = row.contributionMicro)))
  else none

def CohortRow.ranked (cohort : List CohortRow) (readyDemand : Nat) (row : CohortRow) :
    ContributionRoutingRankedCandidate where
  id := row.nodeId.text
  baseScore := row.routingScore
  contributionMicro := row.contributionMicro
  contributionPercentilePpm := midrankKey cohort readyDemand row

theorem bestRoutingScore_mem (hne : cohort ≠ []) :
    ∃ row ∈ cohort, row.routingScore = bestRoutingScore cohort := by
  have hmax : (cohort.map (·.routingScore)).max? ≠ none := by simpa using hne
  obtain ⟨best, hbest⟩ := Option.ne_none_iff_exists'.mp hmax
  obtain ⟨row, hrow, hscore⟩ := List.mem_map.mp (List.max?_mem hbest)
  exact ⟨row, hrow, by rw [bestRoutingScore, hbest, hscore, Option.getD_some]⟩

/-- The third sort key where no product overflows. -/
def sortKey (cohort : List CohortRow) (readyDemand : Nat) (row : CohortRow) : Option Int :=
  if (contributionRoutingMinCohort ≤ cohort.length ∧
        serverFreeSlotsTotal cohort < readyDemand) ∧
      row.routingScore * contributionRoutingNearBestDenominator ≥
        bestRoutingScore cohort * contributionRoutingNearBestNumerator
  then contributionPercentilePpm cohort row else none

def CohortRow.sorted (cohort : List CohortRow) (readyDemand : Nat) (row : CohortRow) :
    CohortRow × Option Int :=
  (row, sortKey cohort readyDemand row)

theorem contributionKey_eq {row : CohortRow} (hmem : row ∈ cohort)
    (bounded : ∀ row ∈ cohort,
      0 ≤ row.routingScore ∧
        Fits 64 (row.routingScore * contributionRoutingNearBestDenominator)) :
    contributionKey cohort readyDemand row = .ok (sortKey cohort readyDemand row) := by
  obtain ⟨best, hbest, hscore⟩ := bestRoutingScore_mem (List.ne_nil_of_mem hmem)
  obtain ⟨hnonneg, hfits⟩ := bounded best hbest
  have hfits' : Fits 64 (bestRoutingScore cohort * contributionRoutingNearBestNumerator) := by
    rw [← hscore]
    simp only [contributionRoutingNearBestDenominator,
      contributionRoutingNearBestNumerator] at hfits ⊢
    exact fits_of_between fits_zero hfits (by omega) (by omega)
  have hrow := (bounded row hmem).2
  by_cases hopen : contributionRoutingMinCohort ≤ cohort.length ∧
      serverFreeSlotsTotal cohort < readyDemand
  · simp only [contributionKey, toBigint, if_pos hrow, if_pos hfits', sortKey, hopen]
    simp [bind, Except.bind, pure, Except.pure]
  · simp [contributionKey, hopen, sortKey]

theorem prioritized_eq (readyDemand : Nat) (bounded : ∀ row ∈ cohort, 0 ≤ row.routingScore ∧
      Fits 64 (row.routingScore * contributionRoutingNearBestDenominator))
    (speedClass : SpeedClass) :
    prioritized speedClass cohort readyDemand =
      .ok (((cohort.map (·.sorted cohort readyDemand)).insertionSort
        fun a b => (cmpPrioritized speedClass a b).isLE = true).map Prod.fst) := by
  have hmap : ∀ rows : List CohortRow, (∀ row ∈ rows, row ∈ cohort) →
      (rows.mapM fun row => do
        let key ← contributionKey cohort readyDemand row
        return (row, key)) = .ok (rows.map (·.sorted cohort readyDemand)) := by
    intro rows hrows
    induction rows with
    | nil => rfl
    | cons row rows ih =>
      rw [List.mapM_cons, contributionKey_eq (hrows row List.mem_cons_self) bounded,
        ih fun r hr => hrows r (List.mem_cons_of_mem _ hr)]
      rfl
  rw [prioritized, hmap cohort fun _ h => h]
  rfl

/-- Up to this size the key of the query is that of the accounting crate. -/
theorem sortKey_eq {row : CohortRow} (hmem : row ∈ cohort)
    (size : cohort.length ≤ exactCohortSize) :
    sortKey cohort readyDemand row =
      (midrankKey cohort readyDemand row).map fun percentile => (percentile : Int) := by
  rw [sortKey, midrankKey]
  split
  · rename_i hopen
    rw [contributionPercentilePpm_eq hmem hopen.1.1 size]
    rfl
  · rfl

theorem compareOfLessAndEq_text (a b : Uuid) :
    compareOfLessAndEq a.text b.text = compare a.asU128.toNat b.asU128.toNat := by
  have heq : a.text = b.text ↔ a.asU128.toNat = b.asU128.toNat := by
    refine ⟨fun h => by rw [Uuid.text_injective h], fun h => ?_⟩
    exact congrArg (fun word => Uuid.text ⟨word⟩) (BitVec.eq_of_toNat_eq h)
  rw [Nat.compare_eq_ite_lt, compareOfLessAndEq]
  simp only [Uuid.text_lt_iff, heq]
  rcases Nat.lt_trichotomy a.asU128.toNat b.asU128.toNat with h | h | h
  · simp [h]
  · simp [h]
  · simp [h, h.ne']

/-- On rows of the cohort the query compares like the accounting crate. -/
theorem cmp_sorted_eq_cmp_ranked (nodup : (cohort.map (·.nodeId)).Nodup)
    (size : cohort.length ≤ exactCohortSize) {a b : CohortRow}
    (ha : a ∈ cohort) (hb : b ∈ cohort) :
    cmpPrioritized .standard (a.sorted cohort readyDemand) (b.sorted cohort readyDemand) =
      (a.ranked cohort readyDemand).cmp (b.ranked cohort readyDemand) := by
  have hkey : descNullsLast (sortKey cohort readyDemand a) (sortKey cohort readyDemand b) =
      compare (midrankKey cohort readyDemand b) (midrankKey cohort readyDemand a) := by
    rw [sortKey_eq ha size, sortKey_eq hb size]
    cases midrankKey cohort readyDemand a with
    | none => cases midrankKey cohort readyDemand b <;> rfl
    | some p =>
      cases midrankKey cohort readyDemand b with
      | none => rfl
      | some q =>
        show compare (q : Int) (p : Int) = compare q p
        rcases Nat.lt_trichotomy q p with h | h | h
        · rw [Nat.compare_eq_lt.mpr h]
          exact compare_lt_iff_lt.mpr (by omega)
        · rw [h, Nat.compare_eq_eq.mpr rfl]
          exact compare_eq_iff_eq.mpr rfl
        · rw [Nat.compare_eq_gt.mpr h]
          exact compare_gt_iff_gt.mpr (by omega)
  have hid : (compare a.nodeId.asU128.toNat b.nodeId.asU128.toNat).then
      (compare a.modelInstanceId.asU128.toNat b.modelInstanceId.asU128.toNat) =
      compareOfLessAndEq a.nodeId.text b.nodeId.text := by
    rw [compareOfLessAndEq_text]
    by_cases h : a.nodeId.asU128.toNat = b.nodeId.asU128.toNat
    · -- one node has one row
      have hnode : a.nodeId = b.nodeId := congrArg Uuid.mk (BitVec.eq_of_toNat_eq h)
      obtain rfl := List.inj_on_of_nodup_map nodup ha hb hnode
      simp
    · have hne : compare a.nodeId.asU128.toNat b.nodeId.asU128.toNat ≠ .eq := by
        rwa [ne_eq, Nat.compare_eq_eq]
      cases hcmp : compare a.nodeId.asU128.toNat b.nodeId.asU128.toNat with
      | lt => rfl
      | eq => exact absurd hcmp hne
      | gt => rfl
  simp only [cmpPrioritized, CohortRow.sorted, CohortRow.ranked,
    ContributionRoutingRankedCandidate.cmp, reduceCtorEq, if_false,
    show descNullsLast none none = .eq from rfl, hkey, hid, Ordering.eq_then]
  rfl

theorem rankContributionCandidates_eq (nodup : (cohort.map (·.nodeId)).Nodup)
    (nonneg : ∀ row ∈ cohort, 0 ≤ row.routingScore ∧ 0 ≤ row.contributionMicro) :
    rankContributionCandidates (cohort.map (·.candidate)) readyDemand
        (serverFreeSlotsTotal cohort) =
      .ok ((cohort.map (·.ranked cohort readyDemand)).insertionSort
        fun left right => (left.cmp right).isLE = true) := by
  have hvalid : validateCandidates [] (cohort.map (·.candidate)) = .ok () := by
    refine validateCandidates_ok ?_ (by simp) ?_
    · rw [List.map_map]
      exact (List.nodup_map_iff_inj_on nodup.of_map).mpr fun a ha b hb h =>
        List.inj_on_of_nodup_map nodup ha hb (Uuid.text_injective h)
    · intro candidate hmem
      obtain ⟨row, hrow, rfl⟩ := List.mem_map.mp hmem
      exact ⟨validateIdentifier_text _ _, nonneg row hrow⟩
  simp only [rankContributionCandidates, bind_eq_ok]
  refine ⟨(), hvalid, ?_⟩
  have hlength : (cohort.map (·.candidate)).length = cohort.length := List.length_map ..
  have hbest : (cohort.map (·.candidate)).map (·.baseScore) = cohort.map (·.routingScore) := by
    rw [List.map_map]
    rfl
  rw [hlength, hbest, List.map_map]
  simp only [pure, Except.pure, Except.ok.injEq]
  congr 1
  refine List.map_congr_left fun row hrow => ?_
  have hmem : row.candidate ∈ cohort.map (·.candidate) := List.mem_map_of_mem hrow
  have hlookup := lookup_contributionMidrankPercentiles hmem
  rw [hlength, List.countP_map, List.countP_map] at hlookup
  have hlookup' : (contributionMidrankPercentiles (cohort.map (·.candidate))).lookup
      row.contributionMicro = some (midrankPercentile cohort.length
        (cohort.countP (·.contributionMicro < row.contributionMicro))
        (cohort.countP (·.contributionMicro = row.contributionMicro))) := hlookup
  by_cases hopen : contributionRoutingMinCohort ≤ cohort.length ∧
      serverFreeSlotsTotal cohort < readyDemand
  · simp [CohortRow.ranked, midrankKey, hopen, hlookup', bestRoutingScore]
  · simp [CohortRow.ranked, midrankKey, hopen]

/-- Both orders are images of one order of the rows. -/
theorem prioritized_map_id (readyDemand : Nat) (nodup : (cohort.map (·.nodeId)).Nodup)
    (size : cohort.length ≤ exactCohortSize) :
    (((cohort.map (·.sorted cohort readyDemand)).insertionSort
        fun a b => (cmpPrioritized .standard a b).isLE = true).map Prod.fst).map
          (·.nodeId.text) =
      ((cohort.map (·.ranked cohort readyDemand)).insertionSort
        fun left right => (left.cmp right).isLE = true).map (·.id) := by
  let le : CohortRow → CohortRow → Prop := fun a b =>
    ((a.ranked cohort readyDemand).cmp (b.ranked cohort readyDemand)).isLE = true
  have hsorted : (cohort.insertionSort le).map (·.sorted cohort readyDemand) =
      (cohort.map (·.sorted cohort readyDemand)).insertionSort
        fun a b => (cmpPrioritized .standard a b).isLE = true :=
    List.map_insertionSort _ _ _ _ fun a ha b hb => by
      rw [cmp_sorted_eq_cmp_ranked nodup size ha hb]
  have hranked : (cohort.insertionSort le).map (·.ranked cohort readyDemand) =
      (cohort.map (·.ranked cohort readyDemand)).insertionSort
        fun left right => (left.cmp right).isLE = true :=
    List.map_insertionSort _ _ _ _ fun a ha b hb => Iff.rfl
  rw [← hsorted, ← hranked, List.map_map, List.map_map, List.map_map]
  rfl

end Agreement

def sampleRow (id : Nat) (routingScore contributionMicro : Int) : CohortRow :=
  ⟨.fromU128 id, .fromU128 id, routingScore, 1, contributionMicro, 0, 0⟩

/-- Five idle nodes, three of them near the best score. -/
def smallCohort : List CohortRow :=
  [sampleRow 1 10000 0, sampleRow 2 9900 100, sampleRow 3 9800 900, sampleRow 4 9799 1000,
    sampleRow 5 9000 50]

/-- `count` nodes with consecutive identifiers and one score and contribution. -/
def sampleGroup (start count : Nat) (routingScore contributionMicro : Int) : List CohortRow :=
  (List.range count).map fun i => sampleRow (start + i) routingScore contributionMicro

/-- Two nodes of equal contribution and one above them near the best score, and two groups
far below it. -/
def groupedCohort (below above : Nat) : List CohortRow :=
  [sampleRow 0 100 1, sampleRow 1 100 1, sampleRow 2 100 2] ++
    (sampleGroup 3 below 0 0 ++ sampleGroup (3 + below) above 0 3)

section Grouped
variable {below above : Nat}

theorem length_groupedCohort : (groupedCohort below above).length = 3 + (below + above) := by
  simp [groupedCohort, sampleGroup]
  omega

theorem mem_groupedCohort {row : CohortRow} (h : row ∈ groupedCohort below above) :
    row = sampleRow 0 100 1 ∨ row = sampleRow 1 100 1 ∨ row = sampleRow 2 100 2 ∨
      row.routingScore = 0 ∧ (row.contributionMicro = 0 ∨ row.contributionMicro = 3) := by
  simp only [groupedCohort, sampleGroup, List.mem_append, List.mem_cons, List.mem_map,
    List.not_mem_nil, or_false] at h
  rcases h with (h | h | h) | ⟨_, -, rfl⟩ | ⟨_, -, rfl⟩
  · exact Or.inl h
  · exact Or.inr (Or.inl h)
  · exact Or.inr (Or.inr (Or.inl h))
  · exact Or.inr (Or.inr (Or.inr ⟨rfl, Or.inl rfl⟩))
  · exact Or.inr (Or.inr (Or.inr ⟨rfl, Or.inr rfl⟩))

theorem nodup_groupedCohort (h : 3 + (below + above) ≤ 2 ^ 128) :
    ((groupedCohort below above).map (·.nodeId)).Nodup := by
  have hids : (groupedCohort below above).map (·.nodeId) =
      (List.range (3 + (below + above))).map Uuid.fromU128 := by
    rw [List.range_add, List.range_add]
    simp [groupedCohort, sampleGroup, sampleRow, List.range_succ, Function.comp_def, add_assoc]
  rw [hids]
  refine List.Nodup.map_on (fun a ha b hb heq => ?_) List.nodup_range
  have hword : BitVec.ofNat 128 a = BitVec.ofNat 128 b := congrArg Uuid.asU128 heq
  have hnat := congrArg BitVec.toNat hword
  rw [BitVec.toNat_ofNat, BitVec.toNat_ofNat,
    Nat.mod_eq_of_lt ((List.mem_range.mp ha).trans_le h),
    Nat.mod_eq_of_lt ((List.mem_range.mp hb).trans_le h)] at hnat
  exact hnat

theorem countP_sampleGroup (start count : Nat) (routingScore contributionMicro : Int)
    (p : Int → Bool) :
    (sampleGroup start count routingScore contributionMicro).countP
        (fun row => p row.contributionMicro) = if p contributionMicro then count else 0 := by
  rw [sampleGroup, List.countP_map]
  split
  · rename_i hp
    exact (List.countP_eq_length.mpr fun _ _ => hp).trans List.length_range
  · rename_i hp
    exact List.countP_eq_zero.mpr fun _ _ => hp

theorem countP_groupedCohort (p : Int → Bool) :
    (groupedCohort below above).countP (fun row => p row.contributionMicro) =
      (if p 1 then 2 else 0) + (if p 2 then 1 else 0) + (if p 0 then below else 0) +
        (if p 3 then above else 0) := by
  rw [groupedCohort, List.countP_append, List.countP_append, countP_sampleGroup,
    countP_sampleGroup]
  simp only [List.countP_cons, List.countP_nil, sampleRow]
  split <;> split <;> omega

theorem serverFreeSlotsTotal_groupedCohort :
    serverFreeSlotsTotal (groupedCohort below above) = 3 + (below + above) := by
  simp [serverFreeSlotsTotal, groupedCohort, sampleGroup, sampleRow, Function.comp_def]
  omega

theorem bestRoutingScore_groupedCohort :
    bestRoutingScore (groupedCohort below above) = 100 := by
  have hmax : ((groupedCohort below above).map (·.routingScore)).max? = some 100 := by
    rw [List.max?_eq_some_iff]
    refine ⟨List.mem_map.mpr ⟨sampleRow 0 100 1, List.mem_cons_self, rfl⟩, fun score hscore => ?_⟩
    obtain ⟨row, hrow, rfl⟩ := List.mem_map.mp hscore
    rcases mem_groupedCohort hrow with rfl | rfl | rfl | ⟨h, -⟩
    · exact le_rfl
    · exact le_rfl
    · exact le_rfl
    · rw [h]
      decide
  rw [bestRoutingScore, hmax, Option.getD_some]

/-- Only the three named nodes are near the best score. -/
theorem nearBest_groupedCohort {row : CohortRow} (h : row ∈ groupedCohort below above) :
    row.routingScore * contributionRoutingNearBestDenominator ≥
        bestRoutingScore (groupedCohort below above) * contributionRoutingNearBestNumerator ↔
      row.routingScore = 100 := by
  rw [bestRoutingScore_groupedCohort]
  rcases mem_groupedCohort h with rfl | rfl | rfl | ⟨h, -⟩
  · decide
  · decide
  · decide
  · rw [h]
    decide

end Grouped

/-- One node more than the cohorts with exact percentiles. The percentile of the first two
nodes is below 500001 by less than the last decimal digit. -/
def largeCohort : List CohortRow := groupedCohort 1000002000000 999997999999

def largeDemand : Nat := 2000000000003

theorem length_largeCohort : largeCohort.length = exactCohortSize + 1 := by
  rw [largeCohort, length_groupedCohort]
  rfl

theorem countP_largeCohort (p : Int → Bool) :
    largeCohort.countP (fun row => p row.contributionMicro) =
      (if p 1 then 2 else 0) + (if p 2 then 1 else 0) + (if p 0 then 1000002000000 else 0) +
        (if p 3 then 999997999999 else 0) :=
  countP_groupedCohort p

theorem open_largeCohort : contributionRoutingMinCohort ≤ largeCohort.length ∧
    serverFreeSlotsTotal largeCohort < largeDemand := by
  rw [length_largeCohort, largeCohort, serverFreeSlotsTotal_groupedCohort]
  decide

theorem nearBest_largeCohort {row : CohortRow} (h : row ∈ largeCohort) :
    row.routingScore * contributionRoutingNearBestDenominator ≥
        bestRoutingScore largeCohort * contributionRoutingNearBestNumerator ↔
      row.routingScore = 100 :=
  nearBest_groupedCohort h

theorem sortKey_largeCohort {row : CohortRow} (h : row ∈ largeCohort) :
    sortKey largeCohort largeDemand row =
      if row.routingScore = 100 then some 500001 else none := by
  rw [sortKey]
  simp only [open_largeCohort, nearBest_largeCohort h, and_self, true_and]
  split
  · rename_i hscore
    have hlength := length_largeCohort
    simp only [contributionPercentilePpm, contributionRank, contributionPeers,
      countP_largeCohort (fun c => decide (c < row.contributionMicro)),
      countP_largeCohort (fun c => decide (c = row.contributionMicro)), hlength]
    rcases mem_groupedCohort h with rfl | rfl | rfl | ⟨hzero, -⟩
    · decide +kernel
    · decide +kernel
    · decide +kernel
    · omega
  · rfl

theorem midrankKey_largeCohort {row : CohortRow} (h : row ∈ largeCohort) :
    midrankKey largeCohort largeDemand row =
      if row.routingScore = 100 then
        some (if row.contributionMicro = 2 then 500001 else 500000) else none := by
  rw [midrankKey]
  simp only [open_largeCohort, nearBest_largeCohort h, and_self, true_and]
  split
  · rename_i hscore
    have hlength := length_largeCohort
    simp only [countP_largeCohort (fun c => decide (c < row.contributionMicro)),
      countP_largeCohort (fun c => decide (c = row.contributionMicro)), hlength]
    rcases mem_groupedCohort h with rfl | rfl | rfl | ⟨hzero, -⟩
    · decide +kernel
    · decide +kernel
    · decide +kernel
    · omega
  · rfl

/-- A cohort whose scores are too large for the products of the query. -/
def wideCohort : List CohortRow := (List.range 5).map fun i => sampleRow i (2 ^ 62) 0

end MindOne.Coordinator
