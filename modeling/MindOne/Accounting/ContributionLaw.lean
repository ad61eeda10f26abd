import Mathlib.Data.Prod.Lex
import Mathlib.Data.String.Basic
import MindOne.Accounting.ContributionRouting

/-!
# The law of contribution routing

The order of a cohort has three levels: the candidates near the best base score come first;
among them the percentile of the contribution decides, and then the base score; the others
keep the order of their base scores. A percentile is a multiple of one millionth, so it
orders by contribution as long as no two contributions share one.
-/

namespace MindOne.Accounting

open CheckedArithmetic

/-- What the slice of candidates promises. -/
structure ValidCohort (candidates : List ContributionRoutingCandidate) : Prop where
  nodup : (candidates.map (·.id)).Nodup
  identifiers : ∀ candidate ∈ candidates,
    validateIdentifier candidate.id "贡献路由候选 ID" = .ok ()
  scores : ∀ candidate ∈ candidates, 0 ≤ candidate.baseScore ∧ Fits 64 candidate.baseScore
  contributions : ∀ candidate ∈ candidates,
    0 ≤ candidate.contributionMicro ∧ Fits 64 candidate.contributionMicro
  length : candidates.length < 2 ^ 64

def ContributionRoutingRankedCandidate.candidate (self : ContributionRoutingRankedCandidate) :
    ContributionRoutingCandidate :=
  ⟨self.id, self.baseScore, self.contributionMicro⟩

namespace ContributionRoutingCandidate
variable (a b : ContributionRoutingCandidate)

/-- By base score descending, then by identifier. -/
def BaseBefore : Prop := b.baseScore < a.baseScore ∨ a.baseScore = b.baseScore ∧ a.id < b.id

/-- By a value of the contribution descending, then as before. -/
def ValueBefore (value : Int → Int) : Prop :=
  value b.contributionMicro < value a.contributionMicro ∨
    value a.contributionMicro = value b.contributionMicro ∧ a.BaseBefore b

def NearBest (best : Int) : Prop := best * 98 ≤ a.baseScore * 100

/-- The three levels. -/
def LawBefore (best : Int) (value : Int → Int) : Prop :=
  a.NearBest best ∧ ¬b.NearBest best ∨
    a.NearBest best ∧ b.NearBest best ∧ a.ValueBefore b value ∨
    ¬a.NearBest best ∧ ¬b.NearBest best ∧ a.BaseBefore b

instance (best : Int) : Decidable (a.NearBest best) := inferInstanceAs (Decidable (_ ≤ _))

end ContributionRoutingCandidate

section Cohort
variable (candidates : List ContributionRoutingCandidate) (readyDemand serverFreeSlots : Nat)

def contributionEnabled : Prop := 5 ≤ candidates.length ∧ serverFreeSlots < readyDemand

instance : Decidable (contributionEnabled candidates readyDemand serverFreeSlots) :=
  inferInstanceAs (Decidable (_ ∧ _))

def bestBaseScore : Int := (candidates.map (·.baseScore)).max?.getD 0

/-- The midrank percentile of a contribution. -/
def contributionPercentile (contribution : Int) : Nat :=
  midrankPercentile candidates.length (candidates.countP (·.contributionMicro < contribution))
    (candidates.countP (·.contributionMicro = contribution))

def rankedCandidate (candidate : ContributionRoutingCandidate) :
    ContributionRoutingRankedCandidate where
  id := candidate.id
  baseScore := candidate.baseScore
  contributionMicro := candidate.contributionMicro
  contributionPercentilePpm :=
    if contributionEnabled candidates readyDemand serverFreeSlots ∧
        candidate.NearBest (bestBaseScore candidates)
    then some (contributionPercentile candidates candidate.contributionMicro) else none

end Cohort

namespace ContributionRoutingRankedCandidate
variable {a b : ContributionRoutingRankedCandidate}

/-- The percentile as a number; none is below all of them. -/
def rank (self : ContributionRoutingRankedCandidate) : Int :=
  self.contributionPercentilePpm.elim (-1) fun percentile => percentile

/-- The comparison as a linear order of keys. -/
def key (self : ContributionRoutingRankedCandidate) : ℤ ×ₗ (ℤ ×ₗ String) :=
  toLex (-self.rank, toLex (-self.baseScore, self.id))

theorem compare_percentiles :
    (compare b.contributionPercentilePpm a.contributionPercentilePpm = .lt ↔ b.rank < a.rank) ∧
      (compare b.contributionPercentilePpm a.contributionPercentilePpm = .eq ↔
        b.rank = a.rank) := by
  rw [rank, rank]
  cases b.contributionPercentilePpm with
  | none =>
      cases a.contributionPercentilePpm with
      | none => exact ⟨by decide, by decide⟩
      | some n =>
          have h : compare none (some n) = Ordering.lt := rfl
          have hrank : (-1 : Int) < n := by omega
          simp [h, hrank, hrank.ne]
  | some m =>
      cases a.contributionPercentilePpm with
      | none =>
          have h : compare (some m) none = Ordering.gt := rfl
          have hrank : (-1 : Int) < m := by omega
          simp [h, hrank.le, hrank.ne']
      | some n =>
          have h : compare (some m) (some n) = compare m n := rfl
          simp only [h, Option.elim, Nat.compare_eq_lt, Nat.compare_eq_eq, Nat.cast_lt,
            Nat.cast_inj, and_self]

theorem isLE_compareOfLessAndEq {x y : String} :
    (compareOfLessAndEq x y).isLE = true ↔ x ≤ y := by
  rw [compareOfLessAndEq]
  split
  · rename_i h
    exact ⟨fun _ => le_of_lt h, fun _ => rfl⟩
  · split
    · rename_i h
      exact ⟨fun _ => le_of_eq h, fun _ => rfl⟩
    · rename_i hlt hne
      exact ⟨fun h => absurd h (by decide), fun h => absurd (lt_of_le_of_ne h hne) hlt⟩

theorem isLE_cmp : (a.cmp b).isLE = true ↔ a.key ≤ b.key := by
  rw [cmp, Ordering.isLE_then_iff_or, Ordering.isLE_then_iff_or, compare_percentiles.1,
    compare_percentiles.2, compare_lt_iff_lt, compare_eq_iff_eq, isLE_compareOfLessAndEq, key, key,
    Prod.Lex.toLex_le_toLex, Prod.Lex.toLex_le_toLex, neg_lt_neg_iff, neg_inj, neg_lt_neg_iff,
    neg_inj, eq_comm (a := b.rank), eq_comm (a := b.baseScore)]

/-- One of two candidates with different identifiers is before the other. -/
theorem before_of_key_le (h : a.key ≤ b.key) (hne : a.id ≠ b.id) :
    b.rank < a.rank ∨ a.rank = b.rank ∧ a.candidate.BaseBefore b.candidate := by
  rw [key, key, Prod.Lex.toLex_le_toLex, Prod.Lex.toLex_le_toLex, neg_lt_neg_iff, neg_inj,
    neg_lt_neg_iff, neg_inj] at h
  rcases h with hrank | ⟨hrank, hbase | ⟨hbase, hid⟩⟩
  · exact .inl hrank
  · exact .inr ⟨hrank, .inl hbase⟩
  · exact .inr ⟨hrank, .inr ⟨hbase, lt_of_le_of_ne hid hne⟩⟩

theorem key_lt_of_rank (h : b.rank < a.rank) : a.key < b.key := by
  rw [key, key, Prod.Lex.toLex_lt_toLex]
  exact .inl (neg_lt_neg h)

theorem key_lt_of_baseScore (hrank : a.rank = b.rank) (h : b.baseScore < a.baseScore) :
    a.key < b.key := by
  rw [key, key, Prod.Lex.toLex_lt_toLex, Prod.Lex.toLex_lt_toLex, hrank]
  exact .inr ⟨rfl, .inl (neg_lt_neg h)⟩

/-- The relation by which the candidates are sorted. -/
def SortsBefore (left right : ContributionRoutingRankedCandidate) : Prop :=
  (left.cmp right).isLE = true

instance : DecidableRel SortsBefore := fun _ _ => inferInstanceAs (Decidable (_ = true))

instance total_sortsBefore : Std.Total SortsBefore :=
  ⟨fun a b => (le_total a.key b.key).imp isLE_cmp.mpr isLE_cmp.mpr⟩

instance trans_sortsBefore : IsTrans ContributionRoutingRankedCandidate SortsBefore :=
  ⟨fun _ _ _ hab hbc => isLE_cmp.mpr ((isLE_cmp.mp hab).trans (isLE_cmp.mp hbc))⟩

end ContributionRoutingRankedCandidate

section Percentiles
variable {candidates : List ContributionRoutingCandidate} {contribution more : Int}

variable (candidates) in
/-- A contribution has the candidates with the smaller ones below it. -/
theorem countP_lt_add_countP_eq (hlt : contribution < more) :
    candidates.countP (·.contributionMicro < contribution) +
        candidates.countP (·.contributionMicro = contribution) ≤
      candidates.countP (·.contributionMicro < more) := by
  induction candidates with
  | nil => simp
  | cons candidate rest ih =>
      simp only [List.countP_cons, decide_eq_true_eq]
      split <;> split <;> split <;> omega

variable (candidates contribution) in
theorem countP_lt_add_countP_eq_le_length :
    candidates.countP (·.contributionMicro < contribution) +
        candidates.countP (·.contributionMicro = contribution) ≤ candidates.length := by
  induction candidates with
  | nil => simp
  | cons candidate rest ih =>
      simp only [List.countP_cons, decide_eq_true_eq, List.length_cons]
      split <;> split <;> omega

variable {size lower tied : Nat}

theorem midrank_le (htied : 0 < tied) (hsum : lower + tied ≤ size) (hsize : 2 ≤ size) :
    (2 * lower + tied - 1) * 1000000 / (2 * (size - 1)) ≤ 1000000 := by
  refine Nat.div_le_of_le_mul ?_
  exact Nat.mul_le_mul_right _ (by omega)

theorem midrankPercentile_eq (htied : 0 < tied) (hsum : lower + tied ≤ size) (hsize : 2 ≤ size) :
    midrankPercentile size lower tied = (2 * lower + tied - 1) * 1000000 / (2 * (size - 1)) :=
  if_pos ((midrank_le htied hsum hsize).trans_lt (by decide))

theorem contributionPercentile_le {candidate : ContributionRoutingCandidate}
    (hmem : candidate ∈ candidates) (hsize : 2 ≤ candidates.length) :
    contributionPercentile candidates candidate.contributionMicro ≤ 1000000 := by
  have htied : 0 < candidates.countP (·.contributionMicro = candidate.contributionMicro) :=
    List.countP_pos_iff.mpr ⟨candidate, hmem, by simp⟩
  rw [contributionPercentile,
    midrankPercentile_eq htied (countP_lt_add_countP_eq_le_length _ _) hsize]
  exact midrank_le htied (countP_lt_add_countP_eq_le_length _ _) hsize

/-- The gap between two contributions is at least two halves of a rank. -/
theorem contributionPercentile_mono {a b : ContributionRoutingCandidate} (ha : a ∈ candidates)
    (hb : b ∈ candidates) (hsize : 2 ≤ candidates.length)
    (hlt : a.contributionMicro < b.contributionMicro) :
    contributionPercentile candidates a.contributionMicro ≤
        contributionPercentile candidates b.contributionMicro ∧
      (candidates.length ≤ 1000001 →
        contributionPercentile candidates a.contributionMicro <
          contributionPercentile candidates b.contributionMicro) := by
  have htied : ∀ c ∈ candidates,
      0 < candidates.countP (·.contributionMicro = c.contributionMicro) := fun c hc =>
    List.countP_pos_iff.mpr ⟨c, hc, by simp⟩
  have ha' := htied a ha
  have hb' := htied b hb
  have hgap := countP_lt_add_countP_eq candidates hlt
  rw [contributionPercentile, contributionPercentile,
    midrankPercentile_eq ha' (countP_lt_add_countP_eq_le_length _ _) hsize,
    midrankPercentile_eq hb' (countP_lt_add_countP_eq_le_length _ _) hsize]
  set lower := candidates.countP (·.contributionMicro < a.contributionMicro)
  set tied := candidates.countP (·.contributionMicro = a.contributionMicro)
  set lower' := candidates.countP (·.contributionMicro < b.contributionMicro)
  set tied' := candidates.countP (·.contributionMicro = b.contributionMicro)
  have hnumerator : (2 * lower + tied - 1) + 2 ≤ 2 * lower' + tied' - 1 := by omega
  have hpos : 0 < 2 * (candidates.length - 1) := by omega
  constructor
  · exact Nat.div_le_div_right (Nat.mul_le_mul_right _ (by omega))
  · intro hsmall
    have hscaled : (2 * lower + tied - 1) * 1000000 + 2 * (candidates.length - 1) ≤
        (2 * lower' + tied' - 1) * 1000000 := by omega
    calc (2 * lower + tied - 1) * 1000000 / (2 * (candidates.length - 1))
        < (2 * lower + tied - 1) * 1000000 / (2 * (candidates.length - 1)) + 1 :=
          Nat.lt_succ_self _
      _ = ((2 * lower + tied - 1) * 1000000 + 2 * (candidates.length - 1)) /
            (2 * (candidates.length - 1)) := (Nat.add_div_right _ hpos).symm
      _ ≤ (2 * lower' + tied' - 1) * 1000000 / (2 * (candidates.length - 1)) :=
          Nat.div_le_div_right hscaled

end Percentiles

section Ranking
variable {candidates : List ContributionRoutingCandidate} {readyDemand serverFreeSlots : Nat}

theorem max?_perm {l l' : List Int} (h : l.Perm l') : l.max? = l'.max? := by
  cases hmax : l.max? with
  | none =>
      rw [List.max?_eq_none_iff] at hmax
      rw [hmax] at h
      rw [h.symm.eq_nil]
      rfl
  | some best =>
      obtain ⟨hmem, hle⟩ := List.max?_eq_some_iff.mp hmax
      exact (List.max?_eq_some_iff.mpr ⟨h.mem_iff.mp hmem, fun b hb => hle b (h.mem_iff.mpr hb)⟩).symm

theorem ValidCohort.perm {other : List ContributionRoutingCandidate} (h : ValidCohort candidates)
    (hperm : other.Perm candidates) : ValidCohort other where
  nodup := (hperm.map _).nodup_iff.mpr h.nodup
  identifiers candidate hmem := h.identifiers candidate (hperm.mem_iff.mp hmem)
  scores candidate hmem := h.scores candidate (hperm.mem_iff.mp hmem)
  contributions candidate hmem := h.contributions candidate (hperm.mem_iff.mp hmem)
  length := hperm.length_eq ▸ h.length

theorem bestBaseScore_spec (hmem : candidates ≠ []) :
    (∃ candidate ∈ candidates, candidate.baseScore = bestBaseScore candidates) ∧
      ∀ candidate ∈ candidates, candidate.baseScore ≤ bestBaseScore candidates := by
  have hsome : (candidates.map (·.baseScore)).max? ≠ none := by simpa using hmem
  obtain ⟨best, hbest⟩ := Option.ne_none_iff_exists'.mp hsome
  obtain ⟨hin, hle⟩ := List.max?_eq_some_iff.mp hbest
  rw [bestBaseScore, hbest, Option.getD_some]
  obtain ⟨candidate, hcandidate, hscore⟩ := List.mem_map.mp hin
  exact ⟨⟨candidate, hcandidate, hscore⟩, fun c hc => hle _ (List.mem_map_of_mem hc)⟩

/-- The ranking is a sort of what each candidate is on its own. -/
theorem ValidCohort.rank_eq (h : ValidCohort candidates) :
    rankContributionCandidates candidates readyDemand serverFreeSlots =
      .ok ((candidates.map (rankedCandidate candidates readyDemand serverFreeSlots)).insertionSort
        ContributionRoutingRankedCandidate.SortsBefore) := by
  have hvalid : validateCandidates [] candidates = .ok () :=
    validateCandidates_ok h.nodup (by simp) fun c hc =>
      ⟨h.identifiers c hc, (h.scores c hc).1, (h.contributions c hc).1⟩
  simp only [rankContributionCandidates, bind_eq_ok]
  refine ⟨(), hvalid, ?_⟩
  refine congrArg (fun ranked => Except.ok (List.insertionSort _ ranked)) ?_
  refine List.map_congr_left fun candidate hmem => ?_
  have hlookup := lookup_contributionMidrankPercentiles hmem
  by_cases hopen : contributionRoutingMinCohort ≤ candidates.length ∧
      serverFreeSlots < readyDemand
  · have henabled : contributionEnabled candidates readyDemand serverFreeSlots := hopen
    simp only [rankedCandidate, hopen, henabled, decide_true, if_true, hlookup, true_and, and_self]
    rfl
  · have hdisabled : ¬contributionEnabled candidates readyDemand serverFreeSlots := hopen
    simp [rankedCandidate, hopen, hdisabled]

theorem rankedCandidate_perm {other : List ContributionRoutingCandidate}
    (hperm : other.Perm candidates) :
    rankedCandidate other readyDemand serverFreeSlots =
      rankedCandidate candidates readyDemand serverFreeSlots := by
  funext candidate
  have hbest : bestBaseScore other = bestBaseScore candidates := by
    rw [bestBaseScore, max?_perm (hperm.map _), bestBaseScore]
  have hpercentile : contributionPercentile other = contributionPercentile candidates := by
    funext contribution
    rw [contributionPercentile, hperm.length_eq, hperm.countP_eq, hperm.countP_eq,
      contributionPercentile]
  have henabled : contributionEnabled other readyDemand serverFreeSlots =
      contributionEnabled candidates readyDemand serverFreeSlots := by
    simp only [contributionEnabled, hperm.length_eq]
  simp only [rankedCandidate, hbest, hpercentile, henabled]

theorem ValidCohort.eq_of_key (h : ValidCohort candidates) {a b : ContributionRoutingRankedCandidate}
    (ha : a ∈ candidates.map (rankedCandidate candidates readyDemand serverFreeSlots))
    (hb : b ∈ candidates.map (rankedCandidate candidates readyDemand serverFreeSlots))
    (hid : a.id = b.id) : a = b := by
  obtain ⟨x, hx, rfl⟩ := List.mem_map.mp ha
  obtain ⟨y, hy, rfl⟩ := List.mem_map.mp hb
  rw [List.inj_on_of_nodup_map h.nodup hx hy hid]

theorem rankedCandidate_rank {candidate : ContributionRoutingCandidate} :
    (rankedCandidate candidates readyDemand serverFreeSlots candidate).rank =
      if contributionEnabled candidates readyDemand serverFreeSlots ∧
          candidate.NearBest (bestBaseScore candidates)
      then (contributionPercentile candidates candidate.contributionMicro : Int) else -1 := by
  rw [ContributionRoutingRankedCandidate.rank, rankedCandidate]
  split <;> rfl

variable (candidates readyDemand serverFreeSlots) in
def rankedCohort : List ContributionRoutingRankedCandidate :=
  (candidates.map (rankedCandidate candidates readyDemand serverFreeSlots)).insertionSort
    ContributionRoutingRankedCandidate.SortsBefore

theorem mem_rankedCohort {ranked : ContributionRoutingRankedCandidate} :
    ranked ∈ rankedCohort candidates readyDemand serverFreeSlots ↔
      ∃ candidate ∈ candidates,
        rankedCandidate candidates readyDemand serverFreeSlots candidate = ranked := by
  rw [rankedCohort, List.mem_insertionSort, List.mem_map]

variable (candidates readyDemand serverFreeSlots) in
theorem rankedCohort_perm :
    ((rankedCohort candidates readyDemand serverFreeSlots).map (·.candidate)).Perm candidates := by
  have hmap := (List.perm_insertionSort ContributionRoutingRankedCandidate.SortsBefore
    (candidates.map (rankedCandidate candidates readyDemand serverFreeSlots))).map (·.candidate)
  rw [List.map_map] at hmap
  exact hmap.trans (.of_eq (List.map_id _))

/-- The input order does not matter. -/
theorem ValidCohort.rankedCohort_eq (h : ValidCohort candidates)
    {other : List ContributionRoutingCandidate} (hperm : other.Perm candidates) :
    rankedCohort other readyDemand serverFreeSlots =
      rankedCohort candidates readyDemand serverFreeSlots := by
  have hmaps := hperm.map (rankedCandidate candidates readyDemand serverFreeSlots)
  have hsame : rankedCohort other readyDemand serverFreeSlots =
      (other.map (rankedCandidate candidates readyDemand serverFreeSlots)).insertionSort
        ContributionRoutingRankedCandidate.SortsBefore := by
    rw [rankedCohort, rankedCandidate_perm hperm]
  rw [hsame]
  refine List.Perm.eq_of_pairwise ?_ (List.pairwise_insertionSort _ _)
    (List.pairwise_insertionSort _ _) ?_
  · intro a b ha hb hab hba
    have hkey : a.key = b.key :=
      le_antisymm (ContributionRoutingRankedCandidate.isLE_cmp.mp hab)
        (ContributionRoutingRankedCandidate.isLE_cmp.mp hba)
    have hid : a.id = b.id := congrArg (fun key => (ofLex (ofLex key).2).2) hkey
    rw [List.mem_insertionSort] at ha
    rw [rankedCohort, List.mem_insertionSort] at hb
    exact h.eq_of_key (hmaps.mem_iff.mp ha) hb hid
  · exact (List.perm_insertionSort _ _).trans (hmaps.trans (List.perm_insertionSort _ _).symm)

variable (readyDemand serverFreeSlots) in
/-- Of two candidates in a row the first one has the higher percentile or comes first by its
base score. -/
theorem ValidCohort.pairwise (h : ValidCohort candidates) :
    (rankedCohort candidates readyDemand serverFreeSlots).Pairwise fun a b =>
      b.rank < a.rank ∨ a.rank = b.rank ∧ a.candidate.BaseBefore b.candidate := by
  have hsorted : (rankedCohort candidates readyDemand serverFreeSlots).Pairwise
      ContributionRoutingRankedCandidate.SortsBefore := List.pairwise_insertionSort _ _
  have hids : ((rankedCohort candidates readyDemand serverFreeSlots).map (·.id)).Nodup := by
    have hperm := (rankedCohort_perm candidates readyDemand serverFreeSlots).map (·.id)
    rw [List.map_map] at hperm
    exact hperm.nodup_iff.mpr h.nodup
  exact (hsorted.and (List.pairwise_map.mp hids)).imp fun hboth =>
    ContributionRoutingRankedCandidate.before_of_key_le
      (ContributionRoutingRankedCandidate.isLE_cmp.mp hboth.1) hboth.2

theorem ValidCohort.pairwise_of_disabled (h : ValidCohort candidates)
    (hdisabled : ¬contributionEnabled candidates readyDemand serverFreeSlots) :
    ((rankedCohort candidates readyDemand serverFreeSlots).map (·.candidate)).Pairwise
      ContributionRoutingCandidate.BaseBefore := by
  refine List.pairwise_map.mpr ((h.pairwise _ _).imp_of_mem fun {a b} ha hb hbefore => ?_)
  obtain ⟨x, -, rfl⟩ := mem_rankedCohort.mp ha
  obtain ⟨y, -, rfl⟩ := mem_rankedCohort.mp hb
  rw [rankedCandidate_rank, rankedCandidate_rank, if_neg fun hopen => hdisabled hopen.1,
    if_neg fun hopen => hdisabled hopen.1] at hbefore
  exact (hbefore.resolve_left (lt_irrefl _)).2

/-- The three levels, where the near ones are ordered by a value that orders like the
percentile. -/
theorem ValidCohort.pairwise_of_enabled (h : ValidCohort candidates)
    (henabled : contributionEnabled candidates readyDemand serverFreeSlots) {value : Int → Int}
    (hvalue : ∀ a ∈ candidates, ∀ b ∈ candidates,
      (value a.contributionMicro < value b.contributionMicro ↔
        contributionPercentile candidates a.contributionMicro <
          contributionPercentile candidates b.contributionMicro)) :
    ((rankedCohort candidates readyDemand serverFreeSlots).map (·.candidate)).Pairwise
      fun a b => a.LawBefore b (bestBaseScore candidates) value := by
  refine List.pairwise_map.mpr ((h.pairwise _ _).imp_of_mem fun {a b} ha hb hbefore => ?_)
  obtain ⟨x, hx, rfl⟩ := mem_rankedCohort.mp ha
  obtain ⟨y, hy, rfl⟩ := mem_rankedCohort.mp hb
  rw [rankedCandidate_rank, rankedCandidate_rank] at hbefore
  simp only [henabled, true_and] at hbefore
  change x.LawBefore y _ _
  by_cases hnear : x.NearBest (bestBaseScore candidates) <;>
    by_cases hnear' : y.NearBest (bestBaseScore candidates)
  · refine .inr (.inl ⟨hnear, hnear', ?_⟩)
    rw [if_pos hnear, if_pos hnear', Int.ofNat_lt] at hbefore
    rcases hbefore with hlt | ⟨heq, hbase⟩
    · exact .inl ((hvalue y hy x hx).mpr hlt)
    · refine .inr ⟨?_, hbase⟩
      have hxy := hvalue x hx y hy
      have hyx := hvalue y hy x hx
      omega
  · exact .inl ⟨hnear, hnear'⟩
  · rw [if_neg hnear, if_pos hnear'] at hbefore
    omega
  · refine .inr (.inr ⟨hnear, hnear', ?_⟩)
    rw [if_neg hnear, if_neg hnear'] at hbefore
    exact (hbefore.resolve_left (lt_irrefl _)).2

theorem ValidCohort.head_nearBest (h : ValidCohort candidates)
    {first : ContributionRoutingRankedCandidate}
    (hfirst : (rankedCohort candidates readyDemand serverFreeSlots).head? = some first) :
    first.candidate.NearBest (bestBaseScore candidates) := by
  obtain ⟨rest, hrest⟩ := List.head?_eq_some_iff.mp hfirst
  have hpairwise := h.pairwise readyDemand serverFreeSlots
  rw [hrest, List.pairwise_cons] at hpairwise
  obtain ⟨x, hx, rfl⟩ := mem_rankedCohort.mp
    (hrest ▸ List.mem_cons_self : first ∈ rankedCohort candidates readyDemand serverFreeSlots)
  obtain ⟨⟨best, hbest, hscore⟩, -⟩ := bestBaseScore_spec (List.ne_nil_of_mem hx)
  have hnonneg := (h.scores best hbest).1
  change bestBaseScore candidates * 98 ≤ x.baseScore * 100
  by_contra hfar
  have hrank : (rankedCandidate candidates readyDemand serverFreeSlots x).rank = -1 := by
    rw [rankedCandidate_rank]
    exact if_neg fun hopen => hfar hopen.2
  have hbestRank : -1 ≤ (rankedCandidate candidates readyDemand serverFreeSlots best).rank := by
    rw [rankedCandidate_rank]
    split <;> omega
  have hin : rankedCandidate candidates readyDemand serverFreeSlots best ∈
      rankedCandidate candidates readyDemand serverFreeSlots x :: rest :=
    hrest ▸ mem_rankedCohort.mpr ⟨best, hbest, rfl⟩
  rcases List.mem_cons.mp hin with heq | hin
  · have hsame : best.baseScore = x.baseScore :=
      congrArg ContributionRoutingRankedCandidate.baseScore heq
    omega
  · have hbase : x.BaseBefore best := by
      rcases hpairwise.1 _ hin with hlt | ⟨-, hbase⟩
      · omega
      · exact hbase
    rcases hbase with hlt | ⟨heq, -⟩
    · omega
    · omega

end Ranking

/-- The intermediate values of the source fit their words. -/
structure CohortFits (candidates : List ContributionRoutingCandidate) : Prop where
  best : Fits 128 (bestBaseScore candidates * 98)
  scores : ∀ candidate ∈ candidates, Fits 128 (candidate.baseScore * 100)
  tied : ∀ candidate ∈ candidates,
    let tied := candidates.countP (·.contributionMicro = candidate.contributionMicro)
    1 ≤ tied ∧ tied < 2 ^ 64
  numerators : ∀ candidate ∈ candidates,
    let lower := candidates.countP (·.contributionMicro < candidate.contributionMicro)
    let tied := candidates.countP (·.contributionMicro = candidate.contributionMicro)
    lower + tied < 2 ^ 128 ∧ (2 * lower + tied - 1) * 1000000 < 2 ^ 128
  denominator : 5 ≤ candidates.length →
    0 < 2 * (candidates.length - 1) ∧ 2 * (candidates.length - 1) < 2 ^ 128

theorem ValidCohort.fits {candidates : List ContributionRoutingCandidate}
    (h : ValidCohort candidates) : CohortFits candidates := by
  have hlength := h.length
  refine ⟨?_, ?_, ?_, ?_, ?_⟩
  · by_cases hne : candidates = []
    · rw [hne]
      decide
    · obtain ⟨⟨best, hbest, hscore⟩, -⟩ := bestBaseScore_spec hne
      obtain ⟨hnonneg, hfits⟩ := h.scores best hbest
      rw [fits_64] at hfits
      rw [fits_128, ← hscore]
      omega
  · intro candidate hmem
    obtain ⟨hnonneg, hfits⟩ := h.scores candidate hmem
    rw [fits_64] at hfits
    rw [fits_128]
    omega
  · intro candidate hmem
    refine ⟨List.countP_pos_iff.mpr ⟨candidate, hmem, by simp⟩, ?_⟩
    exact List.countP_le_length.trans_lt hlength
  · intro candidate hmem
    have hsum := countP_lt_add_countP_eq_le_length candidates candidate.contributionMicro
    constructor <;> omega
  · intro hfive
    constructor <;> omega

/-- The routing law. By contribution the near candidates are ordered as long as no two
contributions share a percentile. -/
theorem rankContributionCandidates_law (candidates : List ContributionRoutingCandidate)
    (readyDemand serverFreeSlots : Nat) (h : ValidCohort candidates) :
    ∃ ranked, rankContributionCandidates candidates readyDemand serverFreeSlots = .ok ranked ∧
      (ranked.map (·.candidate)).Perm candidates ∧
      (∀ other, other.Perm candidates →
        rankContributionCandidates other readyDemand serverFreeSlots = .ok ranked) ∧
      (¬contributionEnabled candidates readyDemand serverFreeSlots →
        (ranked.map (·.candidate)).Pairwise ContributionRoutingCandidate.BaseBefore) ∧
      (contributionEnabled candidates readyDemand serverFreeSlots →
        ((ranked.map (·.candidate)).Pairwise fun a b => a.LawBefore b (bestBaseScore candidates)
          fun contribution => contributionPercentile candidates contribution) ∧
        (candidates.length ≤ 1000001 → (ranked.map (·.candidate)).Pairwise fun a b =>
          a.LawBefore b (bestBaseScore candidates) id)) ∧
      (∀ candidate ∈ ranked, candidate.contributionPercentilePpm =
        if contributionEnabled candidates readyDemand serverFreeSlots ∧
            candidate.candidate.NearBest (bestBaseScore candidates)
        then some (contributionPercentile candidates candidate.contributionMicro) else none) ∧
      (contributionEnabled candidates readyDemand serverFreeSlots →
        ∀ a ∈ candidates, ∀ b ∈ candidates,
          contributionPercentile candidates a.contributionMicro ≤ 1000000 ∧
          (a.contributionMicro ≤ b.contributionMicro →
            contributionPercentile candidates a.contributionMicro ≤
              contributionPercentile candidates b.contributionMicro) ∧
          (candidates.length ≤ 1000001 → a.contributionMicro < b.contributionMicro →
            contributionPercentile candidates a.contributionMicro <
              contributionPercentile candidates b.contributionMicro)) ∧
      (∀ first, ranked.head? = some first →
        first.candidate.NearBest (bestBaseScore candidates)) ∧
      CohortFits candidates := by
  refine ⟨rankedCohort candidates readyDemand serverFreeSlots, h.rank_eq, rankedCohort_perm _ _ _, ?_,
    h.pairwise_of_disabled, fun henabled => ⟨?_, fun hsmall => ?_⟩, ?_, fun henabled => ?_,
    fun first => h.head_nearBest, h.fits⟩
  · intro other hperm
    rw [(h.perm hperm).rank_eq]
    exact congrArg Except.ok (h.rankedCohort_eq hperm)
  · exact h.pairwise_of_enabled henabled fun a _ b _ => Int.ofNat_lt
  · refine h.pairwise_of_enabled henabled fun a ha b hb => ⟨fun hlt => ?_, fun hlt => ?_⟩
    · exact (contributionPercentile_mono ha hb (by have := henabled.1; omega) hlt).2 hsmall
    · by_contra hle
      rcases (not_lt.mp hle).lt_or_eq with hlt' | heq
      · have hmono := contributionPercentile_mono hb ha (by have := henabled.1; omega) hlt'
        exact absurd hmono.1 (not_le.mpr hlt)
      · simp only [id] at heq
        rw [heq] at hlt
        exact lt_irrefl _ hlt
  · intro candidate hmem
    obtain ⟨x, -, rfl⟩ := mem_rankedCohort.mp hmem
    rfl
  · intro a ha b hb
    have hsize : 2 ≤ candidates.length := by
      have := henabled.1
      omega
    refine ⟨contributionPercentile_le ha hsize, fun hle => ?_, fun hsmall hlt =>
      (contributionPercentile_mono ha hb hsize hlt).2 hsmall⟩
    rcases hle.lt_or_eq with hlt | heq
    · exact (contributionPercentile_mono ha hb hsize hlt).1
    · rw [heq]

section Samples

def sampleCandidate (id : Nat) (baseScore contributionMicro : Int) : ContributionRoutingCandidate :=
  ⟨(Uuid.fromU128 id).text, baseScore, contributionMicro⟩

/-- Five candidates, three of them near the best score. -/
def samplePool : List ContributionRoutingCandidate :=
  [sampleCandidate 1 10000 0, sampleCandidate 2 9900 100, sampleCandidate 3 9800 900,
    sampleCandidate 4 9799 1000, sampleCandidate 5 9000 50]

theorem validCohort_of_uuids {candidates : List ContributionRoutingCandidate} {ids : List Nat}
    (hids : candidates.map (·.id) = ids.map fun id => (Uuid.fromU128 id).text)
    (hnodup : ids.Nodup) (hsmall : ∀ id ∈ ids, id < 2 ^ 128)
    (hscores : ∀ candidate ∈ candidates, 0 ≤ candidate.baseScore ∧ Fits 64 candidate.baseScore)
    (hcontributions : ∀ candidate ∈ candidates,
      0 ≤ candidate.contributionMicro ∧ Fits 64 candidate.contributionMicro)
    (hlength : candidates.length < 2 ^ 64) : ValidCohort candidates where
  nodup := by
    rw [hids]
    refine List.Nodup.map_on (fun a ha b hb heq => ?_) hnodup
    have hword : BitVec.ofNat 128 a = BitVec.ofNat 128 b :=
      congrArg Uuid.asU128 (Uuid.text_injective heq)
    have hnat := congrArg BitVec.toNat hword
    rwa [BitVec.toNat_ofNat, BitVec.toNat_ofNat, Nat.mod_eq_of_lt (hsmall a ha),
      Nat.mod_eq_of_lt (hsmall b hb)] at hnat
  identifiers candidate hmem := by
    have hid : candidate.id ∈ ids.map fun id => (Uuid.fromU128 id).text :=
      hids ▸ List.mem_map_of_mem hmem
    obtain ⟨id, -, hid⟩ := List.mem_map.mp hid
    rw [← hid]
    exact validateIdentifier_text _ _
  scores := hscores
  contributions := hcontributions
  length := hlength

theorem rankContributionCandidates_law_sample : ∃ ranked,
    rankContributionCandidates samplePool 6 5 = .ok ranked ∧
    contributionEnabled samplePool 6 5 ∧
    (ranked.map (·.candidate)).Pairwise fun a b => a.LawBefore b (bestBaseScore samplePool) id := by
  have hvalid : ValidCohort samplePool :=
    validCohort_of_uuids (show _ = [1, 2, 3, 4, 5].map _ from rfl) (by decide) (by decide)
      (by decide) (by decide) (by decide)
  have henabled : contributionEnabled samplePool 6 5 := by decide
  obtain ⟨ranked, hranked, -, -, -, hlaw, -⟩ :=
    rankContributionCandidates_law samplePool 6 5 hvalid
  exact ⟨ranked, hranked, henabled, (hlaw henabled).2 (by decide)⟩

/-- Two candidates near the best score, and `count` others with more contribution. -/
def crowdedPool (count : Nat) : List ContributionRoutingCandidate :=
  sampleCandidate 0 100 0 :: sampleCandidate 1 99 1 ::
    (List.range count).map fun i => sampleCandidate (2 + i) 0 2

section Crowded
variable {count : Nat}

theorem length_crowdedPool : (crowdedPool count).length = count + 2 := by
  simp [crowdedPool]

theorem mem_crowdedPool {candidate : ContributionRoutingCandidate}
    (h : candidate ∈ crowdedPool count) : candidate = sampleCandidate 0 100 0 ∨
      candidate = sampleCandidate 1 99 1 ∨
      candidate.baseScore = 0 ∧ candidate.contributionMicro = 2 := by
  simp only [crowdedPool, List.mem_cons, List.mem_map] at h
  rcases h with h | h | ⟨i, -, rfl⟩
  · exact .inl h
  · exact .inr (.inl h)
  · exact .inr (.inr ⟨rfl, rfl⟩)

theorem validCohort_crowdedPool (h : count + 2 < 2 ^ 64) : ValidCohort (crowdedPool count) := by
  refine validCohort_of_uuids (show _ = (List.range (count + 2)).map _ from ?_) List.nodup_range
    (fun id hid => ?_) (fun candidate hmem => ?_) (fun candidate hmem => ?_)
    (length_crowdedPool ▸ h)
  · rw [Nat.add_comm, List.range_add]
    simp [crowdedPool, sampleCandidate, List.range_succ, Function.comp_def]
  · have := List.mem_range.mp hid
    omega
  · rcases mem_crowdedPool hmem with rfl | rfl | ⟨hscore, -⟩
    · decide
    · decide
    · rw [hscore]
      decide
  · rcases mem_crowdedPool hmem with rfl | rfl | ⟨-, hcontribution⟩
    · decide
    · decide
    · rw [hcontribution]
      decide

theorem bestBaseScore_crowdedPool : bestBaseScore (crowdedPool count) = 100 := by
  have hmem : sampleCandidate 0 100 0 ∈ crowdedPool count := List.mem_cons_self
  obtain ⟨⟨best, hbest, hscore⟩, hle⟩ := bestBaseScore_spec (List.ne_nil_of_mem hmem)
  have hfirst := hle _ hmem
  rw [← hscore] at hfirst ⊢
  rcases mem_crowdedPool hbest with rfl | rfl | ⟨hzero, -⟩
  · rfl
  · exact absurd hfirst (by decide)
  · rw [hzero] at hfirst
    exact absurd hfirst (by decide)

theorem countP_crowdedPool (p : Int → Bool) :
    (crowdedPool count).countP (fun candidate => p candidate.contributionMicro) =
      (if p 0 then 1 else 0) + (if p 1 then 1 else 0) + (if p 2 then count else 0) := by
  have hrest : ((List.range count).map fun i => sampleCandidate (2 + i) 0 2).countP
      (fun candidate => p candidate.contributionMicro) = if p 2 then count else 0 := by
    rw [List.countP_map]
    split
    · rename_i hp
      exact (List.countP_eq_length.mpr fun _ _ => hp).trans List.length_range
    · rename_i hp
      exact List.countP_eq_zero.mpr fun _ _ => hp
  rw [crowdedPool, List.countP_cons, List.countP_cons, hrest]
  show _ + (if p 1 then 1 else 0) + (if p 0 then 1 else 0) = _
  omega

/-- With a million others the two contributions share a percentile. -/
theorem contributionPercentile_crowdedPool {contribution : Int}
    (h : contribution = 0 ∨ contribution = 1) :
    contributionPercentile (crowdedPool 1000000) contribution = 0 := by
  rw [contributionPercentile, countP_crowdedPool fun c => decide (c < contribution),
    countP_crowdedPool fun c => decide (c = contribution), length_crowdedPool]
  rcases h with rfl | rfl <;> decide +kernel

theorem rank_crowdedPool {candidate : ContributionRoutingCandidate}
    (h : candidate ∈ crowdedPool 1000000) :
    (rankedCandidate (crowdedPool 1000000) 2 1 candidate).rank =
      if candidate.baseScore = 0 then -1 else 0 := by
  have henabled : contributionEnabled (crowdedPool 1000000) 2 1 := by
    rw [contributionEnabled, length_crowdedPool]
    decide
  rw [rankedCandidate_rank, bestBaseScore_crowdedPool]
  simp only [henabled, true_and]
  rcases mem_crowdedPool h with rfl | rfl | ⟨hscore, -⟩
  · rw [show contributionPercentile _ (sampleCandidate 0 100 0).contributionMicro = 0 from
      contributionPercentile_crowdedPool (.inl rfl)]
    decide
  · rw [show contributionPercentile _ (sampleCandidate 1 99 1).contributionMicro = 0 from
      contributionPercentile_crowdedPool (.inr rfl)]
    decide
  · rw [if_pos hscore, if_neg]
    rw [ContributionRoutingCandidate.NearBest, hscore]
    decide

end Crowded

/-- In a cohort of 1000002 a candidate without contribution comes before one with. -/
theorem rankContributionCandidates_law_fails :
    ValidCohort (crowdedPool 1000000) ∧ contributionEnabled (crowdedPool 1000000) 2 1 ∧
    ∃ ranked, rankContributionCandidates (crowdedPool 1000000) 2 1 = .ok ranked ∧
      ranked.head?.map (·.candidate) = some (sampleCandidate 0 100 0) ∧
      ¬(ranked.map (·.candidate)).Pairwise fun a b =>
        a.LawBefore b (bestBaseScore (crowdedPool 1000000)) id := by
  have hvalid : ValidCohort (crowdedPool 1000000) := validCohort_crowdedPool (by decide)
  have hfirst : sampleCandidate 0 100 0 ∈ crowdedPool 1000000 := List.mem_cons_self
  have hsecond : sampleCandidate 1 99 1 ∈ crowdedPool 1000000 :=
    List.mem_cons_of_mem _ List.mem_cons_self
  have hhead : (rankedCohort (crowdedPool 1000000) 2 1).head? =
      some (rankedCandidate (crowdedPool 1000000) 2 1 (sampleCandidate 0 100 0)) := by
    refine head?_insertionSort _ (List.mem_map_of_mem hfirst) fun other hother hne => ?_
    obtain ⟨candidate, hmem, rfl⟩ := List.mem_map.mp hother
    have hrank := rank_crowdedPool hmem
    have hfirstRank : (rankedCandidate (crowdedPool 1000000) 2 1 (sampleCandidate 0 100 0)).rank =
        0 := rank_crowdedPool hfirst
    simp only [ContributionRoutingRankedCandidate.SortsBefore,
      ContributionRoutingRankedCandidate.isLE_cmp, ← lt_iff_le_not_ge]
    rcases mem_crowdedPool hmem with rfl | rfl | ⟨hscore, -⟩
    · exact absurd rfl hne
    · exact ContributionRoutingRankedCandidate.key_lt_of_baseScore (hfirstRank.trans hrank.symm)
        (show (99 : Int) < 100 by decide)
    · rw [if_pos hscore] at hrank
      exact ContributionRoutingRankedCandidate.key_lt_of_rank (by omega)
  refine ⟨hvalid, ?_, rankedCohort (crowdedPool 1000000) 2 1, hvalid.rank_eq, ?_, ?_⟩
  · rw [contributionEnabled, length_crowdedPool]
    decide
  · rw [hhead]
    rfl
  · intro hlaw
    obtain ⟨rest, hrest⟩ := List.head?_eq_some_iff.mp hhead
    have hin : rankedCandidate (crowdedPool 1000000) 2 1 (sampleCandidate 1 99 1) ∈ rest := by
      have hmem : rankedCandidate (crowdedPool 1000000) 2 1 (sampleCandidate 1 99 1) ∈
          rankedCohort (crowdedPool 1000000) 2 1 := mem_rankedCohort.mpr ⟨_, hsecond, rfl⟩
      rw [hrest] at hmem
      refine (List.mem_cons.mp hmem).resolve_left fun heq => ?_
      have hscore := congrArg ContributionRoutingRankedCandidate.baseScore heq
      exact absurd hscore (by decide)
    rw [hrest, List.map_cons, List.pairwise_cons] at hlaw
    have hbefore := hlaw.1 _ (List.mem_map_of_mem hin)
    rw [bestBaseScore_crowdedPool] at hbefore
    rcases hbefore with ⟨-, hfar⟩ | ⟨-, -, hvalue⟩ | ⟨hfar, -, -⟩
    · exact hfar (show (100 : Int) * 98 ≤ 99 * 100 by decide)
    · rcases hvalue with hlt | ⟨heq, -⟩
      · exact absurd hlt (show ¬(1 : Int) < 0 by decide)
      · exact absurd heq (show ¬(0 : Int) = 1 by decide)
    · exact hfar (show (100 : Int) * 98 ≤ 100 * 100 by decide)

end Samples

end MindOne.Accounting
