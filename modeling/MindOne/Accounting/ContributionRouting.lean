import Mathlib.Algebra.BigOperators.Group.List.Lemmas
import Mathlib.Data.List.Dedup
import Mathlib.Data.List.Sort
import MindOne.Lib.CheckedArithmetic
import MindOne.Values

/-!
# Contribution routing

When demand exceeds the free slots of a cohort that is large enough, the nodes
whose base score is close to the best one are ordered by the midrank percentile
of their contribution. All other nodes keep the order of their base scores.
-/

namespace MindOne.Accounting

open CheckedArithmetic

/-- The error of the routing functions. -/
inductive RoutingError where
  | invalidRouting (message : String)
  deriving DecidableEq, Repr

def contributionRoutingMinCohort : Nat := 5

def contributionRoutingPercentileScale : Nat := 1000000

def contributionRoutingNearBestNumerator : Int := 98

def contributionRoutingNearBestDenominator : Int := 100

structure ContributionRoutingCandidate where
  id : String
  baseScore : Int
  contributionMicro : Int

structure ContributionRoutingRankedCandidate where
  id : String
  baseScore : Int
  contributionMicro : Int
  contributionPercentilePpm : Option Nat
  deriving DecidableEq, Repr

def validateIdentifier (value label : String) : Except RoutingError Unit :=
  rejectIf (value.toList.all isWhitespace = true ∨ (utf8 value).length > 255 ∨
    hasControl value = true) (.invalidRouting (label ++ " 为空或无效"))

/-- The checks of the candidates, with the identifiers seen so far. -/
def validateCandidates : List String → List ContributionRoutingCandidate →
    Except RoutingError Unit
  | _, [] => .ok ()
  | identifiers, candidate :: rest => do
      validateIdentifier candidate.id "贡献路由候选 ID"
      rejectIf (candidate.id ∈ identifiers) (.invalidRouting "贡献路由候选 ID 必须唯一")
      rejectIf (candidate.baseScore < 0) (.invalidRouting "贡献路由基础分必须是非负整数")
      rejectIf (candidate.contributionMicro < 0)
        (.invalidRouting "贡献路由贡献值必须是非负整数")
      validateCandidates (candidate.id :: identifiers) rest

/-- The contributions in increasing order, each with the number of its candidates. -/
def contributionFrequencies (candidates : List ContributionRoutingCandidate) :
    List (Int × Nat) :=
  (((candidates.map (·.contributionMicro)).dedup).insertionSort (· ≤ ·)).map fun contribution =>
    (contribution, candidates.countP (·.contributionMicro = contribution))

/-- The percentile of `tied` candidates above `lower` others. -/
def midrankPercentile (cohortSize lower tied : Nat) : Nat :=
  let numerator := (2 * lower + tied - 1) * contributionRoutingPercentileScale
  let denominator := 2 * (cohortSize - 1)
  if numerator / denominator < 2 ^ 32 then numerator / denominator
  else contributionRoutingPercentileScale

/-- The loop over the frequencies. -/
def midrankLoop (cohortSize : Nat) : Nat → List (Int × Nat) → List (Int × Nat)
  | _, [] => []
  | lower, (contribution, tied) :: rest =>
      (contribution, midrankPercentile cohortSize lower tied) ::
        midrankLoop cohortSize (lower + tied) rest

def contributionMidrankPercentiles (candidates : List ContributionRoutingCandidate) :
    List (Int × Nat) :=
  midrankLoop candidates.length 0 (contributionFrequencies candidates)

/-- The best candidate of two: by percentile, then by base score, then by identifier. -/
def ContributionRoutingRankedCandidate.cmp
    (left right : ContributionRoutingRankedCandidate) : Ordering :=
  (compare right.contributionPercentilePpm left.contributionPercentilePpm).then
    ((compare right.baseScore left.baseScore).then (compareOfLessAndEq left.id right.id))

def rankContributionCandidates (candidates : List ContributionRoutingCandidate)
    (readyDemand serverFreeSlots : Nat) :
    Except RoutingError (List ContributionRoutingRankedCandidate) := do
  validateCandidates [] candidates
  let contributionEnabled : Bool :=
    contributionRoutingMinCohort ≤ candidates.length ∧ serverFreeSlots < readyDemand
  let bestScore := (candidates.map (·.baseScore)).max?.getD 0
  let percentiles :=
    if contributionEnabled then contributionMidrankPercentiles candidates else []
  let ranked := candidates.map fun candidate =>
    { id := candidate.id
      baseScore := candidate.baseScore
      contributionMicro := candidate.contributionMicro
      contributionPercentilePpm :=
        if contributionEnabled = true ∧
            candidate.baseScore * contributionRoutingNearBestDenominator ≥
              bestScore * contributionRoutingNearBestNumerator
        then percentiles.lookup candidate.contributionMicro else none }
  return ranked.insertionSort fun left right => (left.cmp right).isLE = true

/-- The element before all others comes first, whatever the order does with the rest. -/
theorem head?_insertionSort {α : Type} (r : α → α → Prop) [DecidableRel r] {x : α} {l : List α}
    (hmem : x ∈ l) (least : ∀ y ∈ l, y ≠ x → r x y ∧ ¬ r y x) :
    (l.insertionSort r).head? = some x := by
  induction l with
  | nil => simp at hmem
  | cons a l ih =>
    rw [List.insertionSort_cons]
    by_cases ha : a = x
    · subst ha
      cases hsorted : l.insertionSort r with
      | nil => rfl
      | cons b rest =>
        have hb : b ∈ l := by
          rw [← List.mem_insertionSort r, hsorted]
          exact List.mem_cons_self
        by_cases hab : b = a
        · subst hab
          rw [List.orderedInsert]
          split <;> rfl
        · rw [List.orderedInsert, if_pos (least b (List.mem_cons_of_mem _ hb) hab).1]
          rfl
    · have hx : x ∈ l := (List.mem_cons.mp hmem).resolve_left fun h => ha h.symm
      obtain ⟨rest, hrest⟩ := List.head?_eq_some_iff.mp
        (ih hx fun y hy => least y (List.mem_cons_of_mem _ hy))
      rw [hrest, List.orderedInsert, if_neg (least a List.mem_cons_self ha).2]
      rfl

section Percentiles
variable {candidates : List ContributionRoutingCandidate}

/-- The loop reaches a contribution with the count of the smaller ones. -/
theorem lookup_midrankLoop (size lower : Nat) (count : Int → Nat) {keys : List Int}
    (sorted : keys.Pairwise (· < ·)) {key : Int} (hkey : key ∈ keys) :
    (midrankLoop size lower (keys.map fun k => (k, count k))).lookup key =
      some (midrankPercentile size
        (lower + ((keys.filter (· < key)).map count).sum) (count key)) := by
  induction keys generalizing lower with
  | nil => simp at hkey
  | cons k keys ih =>
    obtain ⟨hk, htail⟩ := List.pairwise_cons.mp sorted
    rw [List.map_cons, midrankLoop, List.lookup_cons]
    by_cases heq : key = k
    · subst heq
      have hnone : keys.filter (· < key) = [] := by
        rw [List.filter_eq_nil_iff]
        intro x hx
        have := hk x hx
        simp only [decide_eq_true_eq]
        omega
      simp [hnone]
    · have hmem : key ∈ keys := (List.mem_cons.mp hkey).resolve_left heq
      have hlt : k < key := hk key hmem
      rw [show (key == k) = false from beq_eq_false_iff_ne.mpr heq, ih _ htail hmem,
        List.filter_cons_of_pos (by simpa using hlt), List.map_cons, List.sum_cons, add_assoc]

/-- Every candidate finds the percentile of the candidates below it and tied with it. -/
theorem lookup_contributionMidrankPercentiles {candidate : ContributionRoutingCandidate}
    (hmem : candidate ∈ candidates) :
    (contributionMidrankPercentiles candidates).lookup candidate.contributionMicro =
      some (midrankPercentile candidates.length
        (candidates.countP (·.contributionMicro < candidate.contributionMicro))
        (candidates.countP (·.contributionMicro = candidate.contributionMicro))) := by
  set values := candidates.map (·.contributionMicro) with hvalues
  set keys := values.dedup.insertionSort (· ≤ ·) with hkeys
  have hperm : keys.Perm values.dedup := List.perm_insertionSort _ _
  have hcount : ∀ k, candidates.countP (·.contributionMicro = k) = values.count k := by
    intro k
    rw [hvalues, List.count, List.countP_map]
    exact List.countP_congr fun c _ => by simp
  have hsorted : keys.Pairwise (· < ·) := by
    have hle : keys.Pairwise (· ≤ ·) := List.pairwise_insertionSort _ _
    have hne : keys.Pairwise (· ≠ ·) := hperm.nodup_iff.mpr (List.nodup_dedup values)
    exact (hle.and hne).imp fun h => lt_of_le_of_ne h.1 h.2
  have hkey : candidate.contributionMicro ∈ keys := by
    rw [hperm.mem_iff, List.mem_dedup]
    exact List.mem_map_of_mem hmem
  have hbelow : ((keys.filter (· < candidate.contributionMicro)).map values.count).sum =
      candidates.countP (·.contributionMicro < candidate.contributionMicro) := by
    have hsum : ((keys.filter (· < candidate.contributionMicro)).map values.count).sum =
        ((values.dedup.filter (· < candidate.contributionMicro)).map values.count).sum :=
      ((hperm.filter _).map _).sum_eq
    rw [hsum]
    exact (List.sum_map_count_dedup_filter_eq_countP _ values).trans (by
      rw [hvalues, List.countP_map]
      rfl)
  have hlookup := lookup_midrankLoop candidates.length 0 values.count hsorted hkey
  rw [hbelow, zero_add, ← hcount] at hlookup
  rw [contributionMidrankPercentiles, contributionFrequencies]
  simp only [hcount]
  rw [← hcount]
  exact hlookup

end Percentiles

section Validation

theorem validateCandidates_ok {candidates : List ContributionRoutingCandidate}
    {identifiers : List String} (nodup : (candidates.map (·.id)).Nodup)
    (fresh : ∀ candidate ∈ candidates, candidate.id ∉ identifiers)
    (valid : ∀ candidate ∈ candidates,
      validateIdentifier candidate.id "贡献路由候选 ID" = .ok () ∧
        0 ≤ candidate.baseScore ∧ 0 ≤ candidate.contributionMicro) :
    validateCandidates identifiers candidates = .ok () := by
  induction candidates generalizing identifiers with
  | nil => rfl
  | cons candidate rest ih =>
    obtain ⟨hfresh, hnodup⟩ := List.nodup_cons.mp nodup
    obtain ⟨hid, hbase, hcontribution⟩ := valid candidate List.mem_cons_self
    simp only [validateCandidates, bind_eq_ok, rejectIf_eq_ok, exists_const]
    refine ⟨(), hid, fresh candidate List.mem_cons_self, by omega, by omega,
      ih hnodup ?_ fun c hc => valid c (List.mem_cons_of_mem _ hc)⟩
    intro c hc hseen
    rcases List.mem_cons.mp hseen with heq | hold
    · exact hfresh (List.mem_map.mpr ⟨c, hc, heq⟩)
    · exact fresh c (List.mem_cons_of_mem _ hc) hold

theorem validateIdentifier_text (id : Uuid) (label : String) :
    validateIdentifier id.text label = .ok () := by
  rw [validateIdentifier, rejectIf_eq_ok]
  have hlength := length_utf8_of_plain id.plain_text
  have hcontrol := hasControl_of_plain id.plain_text
  rw [id.length_text] at hlength
  have hdash : '-' ∈ id.text.toList := by simp [Uuid.text]
  have hspace : ¬ id.text.toList.all isWhitespace = true := fun h => by
    have := List.all_eq_true.mp h '-' hdash
    revert this
    decide
  simp [hspace, hlength, hcontrol]

end Validation

end MindOne.Accounting
