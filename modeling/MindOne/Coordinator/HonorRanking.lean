import MindOne.Coordinator.HonorBands
import Mathlib.Tactic.Linarith
import Mathlib.Tactic.Ring

/-!
# A band is a run of the best groups

The midrank of a group grows along the scan. So the qualifying groups are the last ones,
a larger percentage takes in no fewer of them, and their number exceeds the exact share
by at most the nodes that are tied. The words of the scan hold cohorts of up to `2 ^ 62`
nodes, and every larger one is refused.
-/

namespace MindOne.Coordinator

open CheckedArithmetic

/-- Twice the midrank of a group reaches the bound of the band. -/
def Qualifies (cohortNodes topPercent lowerNodes tiedNodes : Int) : Prop :=
  (cohortNodes - 1) * 2 * (100 - topPercent) ≤ (lowerNodes * 2 + tiedNodes - 1) * 100

instance (cohortNodes topPercent lowerNodes tiedNodes : Int) :
    Decidable (Qualifies cohortNodes topPercent lowerNodes tiedNodes) :=
  inferInstanceAs (Decidable (_ ≤ _))

/-- The groups of a band, from the nodes below the first of them on. -/
def band (cohortNodes topPercent : Int) : Int → List Int → List Int
  | _, [] => []
  | lowerNodes, tiedNodes :: rest =>
      if Qualifies cohortNodes topPercent lowerNodes tiedNodes then
        tiedNodes :: band cohortNodes topPercent (lowerNodes + tiedNodes) rest
      else band cohortNodes topPercent (lowerNodes + tiedNodes) rest

section Bands
variable {cohortNodes topPercent lowerNodes tiedNodes : Int} {groups : List Int}

theorem Qualifies.next (h : Qualifies cohortNodes topPercent lowerNodes tiedNodes)
    (htied : 0 < tiedNodes) {better : Int} (hbetter : 0 < better) :
    Qualifies cohortNodes topPercent (lowerNodes + tiedNodes) better := by
  simp only [Qualifies] at h ⊢
  omega

/-- Above a qualifying group all groups qualify. -/
theorem band_eq_self (hpos : ∀ group ∈ groups, 0 < group)
    (h : ∀ group, 0 < group → Qualifies cohortNodes topPercent lowerNodes group) :
    band cohortNodes topPercent lowerNodes groups = groups := by
  induction groups generalizing lowerNodes with
  | nil => rfl
  | cons group rest ih =>
      obtain ⟨hgroup, hrest⟩ := List.forall_mem_cons.mp hpos
      have hqualifies := h group hgroup
      rw [band, if_pos hqualifies, ih hrest fun better hbetter => hqualifies.next hgroup hbetter]

theorem band_cons_of_qualifies (hpos : ∀ group ∈ tiedNodes :: groups, 0 < group)
    (h : Qualifies cohortNodes topPercent lowerNodes tiedNodes) :
    band cohortNodes topPercent lowerNodes (tiedNodes :: groups) = tiedNodes :: groups := by
  obtain ⟨htied, hrest⟩ := List.forall_mem_cons.mp hpos
  rw [band, if_pos h, band_eq_self hrest fun better hbetter => h.next htied hbetter]

theorem band_suffix (hpos : ∀ group ∈ groups, 0 < group) :
    band cohortNodes topPercent lowerNodes groups <:+ groups := by
  induction groups generalizing lowerNodes with
  | nil => exact List.suffix_rfl
  | cons group rest ih =>
      by_cases h : Qualifies cohortNodes topPercent lowerNodes group
      · rw [band_cons_of_qualifies hpos h]
      · rw [band, if_neg h]
        exact (ih (List.forall_mem_cons.mp hpos).2).trans (List.suffix_cons group rest)

theorem band_sum_nonneg (hpos : ∀ group ∈ groups, 0 < group) :
    0 ≤ (band cohortNodes topPercent lowerNodes groups).sum :=
  List.sum_nonneg fun group hgroup =>
    (hpos group ((band_suffix hpos).subset hgroup)).le

theorem band_sum_le_sum (hpos : ∀ group ∈ groups, 0 < group) :
    (band cohortNodes topPercent lowerNodes groups).sum ≤ groups.sum := by
  obtain ⟨worse, hworse⟩ : band cohortNodes topPercent lowerNodes groups <:+ groups :=
    band_suffix hpos
  have hnonneg : 0 ≤ worse.sum := List.sum_nonneg fun group hgroup =>
    (hpos group (hworse ▸ List.mem_append_left _ hgroup)).le
  have hsum := congrArg List.sum hworse
  rw [List.sum_append] at hsum
  omega

/-- A larger percentage takes in no fewer nodes. -/
theorem band_sum_mono {more : Int} (hcohort : 1 ≤ cohortNodes) (hle : topPercent ≤ more)
    (hpos : ∀ group ∈ groups, 0 < group) :
    (band cohortNodes topPercent lowerNodes groups).sum ≤
      (band cohortNodes more lowerNodes groups).sum := by
  induction groups generalizing lowerNodes with
  | nil => exact le_rfl
  | cons group rest ih =>
      have hrest := @ih (lowerNodes + group) (List.forall_mem_cons.mp hpos).2
      by_cases h : Qualifies cohortNodes topPercent lowerNodes group
      · have hmore : Qualifies cohortNodes more lowerNodes group := by
          have hscaled : (cohortNodes - 1) * 2 * (100 - more) ≤
              (cohortNodes - 1) * 2 * (100 - topPercent) :=
            mul_le_mul_of_nonneg_left (by omega) (by omega)
          exact hscaled.trans h
        rw [band_cons_of_qualifies hpos h, band_cons_of_qualifies hpos hmore]
      · rw [band, if_neg h]
        by_cases hmore : Qualifies cohortNodes more lowerNodes group
        · rw [band_cons_of_qualifies hpos hmore]
          have hsum : (band cohortNodes topPercent (lowerNodes + group) rest).sum ≤ rest.sum :=
            band_sum_le_sum (List.forall_mem_cons.mp hpos).2
          have hgroup := (List.forall_mem_cons.mp hpos).1
          rw [List.sum_cons]
          omega
        · rw [band, if_neg hmore]
          exact hrest

/-- All but one node of a band are within twice the share. -/
theorem band_sum_bound (hcohort : 1 ≤ cohortNodes) (hpercent : 0 ≤ topPercent)
    (hpos : ∀ group ∈ groups, 0 < group) (htotal : lowerNodes + groups.sum = cohortNodes) :
    ((band cohortNodes topPercent lowerNodes groups).sum - 1) * 100 ≤
      2 * topPercent * (cohortNodes - 1) := by
  induction groups generalizing lowerNodes with
  | nil =>
      have hshare : 0 ≤ 2 * topPercent * (cohortNodes - 1) :=
        mul_nonneg (by omega) (by omega)
      simp only [band, List.sum_nil]
      omega
  | cons group rest ih =>
      obtain ⟨hgroup, hrest⟩ := List.forall_mem_cons.mp hpos
      rw [List.sum_cons] at htotal
      by_cases h : Qualifies cohortNodes topPercent lowerNodes group
      · have hrestSum : 0 ≤ rest.sum := List.sum_nonneg fun better hbetter =>
          (hrest better hbetter).le
        have hexpand : (cohortNodes - 1) * 2 * (100 - topPercent) =
            200 * (cohortNodes - 1) - 2 * topPercent * (cohortNodes - 1) := by ring
        rw [Qualifies, hexpand] at h
        rw [band_cons_of_qualifies hpos (by rw [Qualifies, hexpand]; exact h), List.sum_cons]
        omega
      · rw [band, if_neg h]
        exact ih hrest (by omega)

end Bands

/-! ## The scan -/

theorem checkedI64_of_fits {value : Int} (h : Fits 64 value) : checkedI64 value = .ok value :=
  if_pos h

theorem checkedI64_eq_ok {value result : Int} :
    checkedI64 value = .ok result ↔ Fits 64 value ∧ result = value := by
  rw [checkedI64]
  split
  · next h => simp [h, eq_comm]
  · next h => simp [h]

theorem productI128_of_fits {a b : Int} (h : Fits 128 (a * b)) : productI128 a b = .ok (a * b) :=
  if_pos h

section Scan
variable {cohortNodes topPercent : Int} {scan : RankScan} {tiedNodes : Int}

theorem saturatingAddI64_of_fits {a b : Int} (h : Fits 64 (a + b)) :
    saturatingAddI64 a b = a + b := by
  have hlargest : (2 : Int) ^ 63 - 1 = 9223372036854775807 := by norm_num
  have hsmallest : -(2 : Int) ^ 63 = -9223372036854775808 := by norm_num
  rw [fits_64] at h
  rw [saturatingAddI64, hlargest, hsmallest]
  omega

theorem twiceMidrankNumerator_eq {lowerNodes : Int} (hlower : 0 ≤ lowerNodes)
    (htied : 0 < tiedNodes) (hfits : lowerNodes * 2 + tiedNodes < 2 ^ 63) :
    twiceMidrankNumerator lowerNodes tiedNodes = .ok (lowerNodes * 2 + tiedNodes - 1) := by
  have hword : (2 : Int) ^ 63 = 9223372036854775808 := by norm_num
  rw [hword] at hfits
  have hdoubled : checkedI64 (lowerNodes * 2) = .ok (lowerNodes * 2) :=
    checkedI64_of_fits (fits_64.mpr (by omega))
  have hraised : checkedI64 (lowerNodes * 2 + tiedNodes) = .ok (lowerNodes * 2 + tiedNodes) :=
    checkedI64_of_fits (fits_64.mpr (by omega))
  simp only [twiceMidrankNumerator, hdoubled, hraised, bind, Except.bind]
  exact checkedI64_of_fits (fits_64.mpr (by omega))

/-- The largest cohort whose doubled rank fits a word. -/
theorem twiceMidrankDenominator_eq (hcohort : 0 < cohortNodes) :
    twiceMidrankDenominator cohortNodes =
      if cohortNodes ≤ 2 ^ 62 then .ok ((cohortNodes - 1) * 2) else .error .internal := by
  have hword : (2 : Int) ^ 62 = 4611686018427387904 := by norm_num
  rw [hword]
  by_cases hothers : Fits 64 (cohortNodes - 1)
  · rw [twiceMidrankDenominator, checkedI64_of_fits hothers]
    simp only [bind, Except.bind, checkedI64, fits_64]
    exact if_congr (by omega) rfl rfl
  · have hlarge : ¬cohortNodes ≤ 4611686018427387904 := by
      rw [fits_64] at hothers
      omega
    rw [twiceMidrankDenominator, checkedI64, if_neg hothers, if_neg hlarge]
    rfl

theorem addQualifying_eq {qualifies : Prop} [Decidable qualifies] {qualifyingNodes : Int}
    (hfits : Fits 64 (qualifyingNodes + tiedNodes)) :
    addQualifying (decide qualifies) qualifyingNodes tiedNodes =
      .ok (if qualifies then qualifyingNodes + tiedNodes else qualifyingNodes) := by
  by_cases h : qualifies
  · simp [addQualifying, h, checkedI64_of_fits hfits]
  · simp [addQualifying, h]

/-- The words hold a cohort of up to `2 ^ 62` nodes. -/
theorem RankScan.step_eq (hsmall : cohortNodes ≤ 2 ^ 62)
    (hpercent : 1 ≤ topPercent ∧ topPercent ≤ 100) (hlower : 0 ≤ scan.lowerNodes)
    (htied : 0 < tiedNodes) (htotal : scan.lowerNodes + tiedNodes ≤ cohortNodes)
    (hqualifying : 0 ≤ scan.qualifyingNodes ∧ scan.qualifyingNodes ≤ scan.lowerNodes) :
    RankScan.step cohortNodes topPercent scan tiedNodes = .ok ⟨scan.lowerNodes + tiedNodes,
      if Qualifies cohortNodes topPercent scan.lowerNodes tiedNodes then
        scan.qualifyingNodes + tiedNodes else scan.qualifyingNodes⟩ := by
  have hword : (2 : Int) ^ 62 = 4611686018427387904 := by norm_num
  have hlargest : (2 : Int) ^ 63 = 9223372036854775808 := by norm_num
  have hdenominator : twiceMidrankDenominator cohortNodes = .ok ((cohortNodes - 1) * 2) := by
    rw [twiceMidrankDenominator_eq (by omega), if_pos hsmall]
  rw [hword] at hsmall
  have hraised : Fits 64 (scan.lowerNodes + tiedNodes) := fits_64.mpr (by omega)
  have hnumerator : twiceMidrankNumerator scan.lowerNodes tiedNodes =
      .ok (scan.lowerNodes * 2 + tiedNodes - 1) :=
    twiceMidrankNumerator_eq hlower htied (by omega)
  have hreached : productI128 (scan.lowerNodes * 2 + tiedNodes - 1) 100 =
      .ok ((scan.lowerNodes * 2 + tiedNodes - 1) * 100) :=
    productI128_of_fits (fits_128.mpr (by omega))
  have hrequired : productI128 ((cohortNodes - 1) * 2) (100 - topPercent) =
      .ok ((cohortNodes - 1) * 2 * (100 - topPercent)) := by
    have hnonneg : 0 ≤ (cohortNodes - 1) * 2 * (100 - topPercent) :=
      mul_nonneg (by omega) (by omega)
    have hle : (cohortNodes - 1) * 2 * (100 - topPercent) ≤ (cohortNodes - 1) * 2 * 100 :=
      mul_le_mul_of_nonneg_left (by omega) (by omega)
    exact productI128_of_fits (fits_128.mpr (by omega))
  rw [RankScan.step, saturatingAddI64_of_fits hraised, rejectIf_of_not _ (by omega), hnumerator,
    hdenominator]
  simp only [bind, Except.bind]
  rw [hreached]
  simp only
  rw [hrequired]
  simp only
  rw [addQualifying_eq (fits_64.mpr (by omega))]
  simp only
  rw [checkedI64_of_fits hraised]
  rfl

/-- A scan that starts anywhere adds up the band of the groups that are left. -/
theorem foldlM_step_eq {groups : List Int} (hsmall : cohortNodes ≤ 2 ^ 62)
    (hpercent : 1 ≤ topPercent ∧ topPercent ≤ 100) (hpos : ∀ group ∈ groups, 0 < group)
    (hlower : 0 ≤ scan.lowerNodes)
    (hqualifying : 0 ≤ scan.qualifyingNodes ∧ scan.qualifyingNodes ≤ scan.lowerNodes)
    (htotal : scan.lowerNodes + groups.sum = cohortNodes) :
    groups.foldlM (RankScan.step cohortNodes topPercent) scan = .ok ⟨cohortNodes,
      scan.qualifyingNodes + (band cohortNodes topPercent scan.lowerNodes groups).sum⟩ := by
  induction groups generalizing scan with
  | nil =>
      simp only [List.sum_nil, add_zero] at htotal
      simp [band, ← htotal, pure, Except.pure]
  | cons group rest ih =>
      obtain ⟨hgroup, hrest⟩ := List.forall_mem_cons.mp hpos
      have hrestSum : 0 ≤ rest.sum := List.sum_nonneg fun better hbetter =>
        (hrest better hbetter).le
      rw [List.sum_cons] at htotal
      have hstep := RankScan.step_eq hsmall hpercent hlower hgroup (by omega) hqualifying
      rw [List.foldlM_cons, hstep]
      by_cases h : Qualifies cohortNodes topPercent scan.lowerNodes group
      · have hscan := @ih ⟨scan.lowerNodes + group, scan.qualifyingNodes + group⟩ hrest
          (by simp only; omega) (by simp only; omega) (by simp only; omega)
        simp only [if_pos h, bind, Except.bind]
        rw [hscan, band_cons_of_qualifies hpos h, List.sum_cons,
          band_eq_self hrest fun better hbetter => h.next hgroup hbetter, add_assoc]
      · have hscan := @ih ⟨scan.lowerNodes + group, scan.qualifyingNodes⟩ hrest
          (by simp only; omega) (by simp only; omega) (by simp only; omega)
        simp only [if_neg h, bind, Except.bind]
        rw [hscan, band, if_neg h]

theorem topRankedNodes_eq {groups : List Int} (hcohort : 5 ≤ cohortNodes)
    (hsmall : cohortNodes ≤ 2 ^ 62) (hpercent : 1 ≤ topPercent ∧ topPercent ≤ 100)
    (hpos : ∀ group ∈ groups, 0 < group) (htotal : groups.sum = cohortNodes) :
    topRankedNodes cohortNodes topPercent groups =
      .ok (band cohortNodes topPercent 0 groups).sum := by
  have hscan : groups.foldlM (RankScan.step cohortNodes topPercent) ⟨0, 0⟩ =
      .ok ⟨cohortNodes, 0 + (band cohortNodes topPercent 0 groups).sum⟩ :=
    foldlM_step_eq hsmall hpercent hpos le_rfl ⟨le_rfl, le_rfl⟩ (by simp only; omega)
  rw [topRankedNodes, rejectIf_of_not _ (by simp only [contributionRankPrivacyThreshold]; omega)]
  simp only [bind, Except.bind]
  rw [hscan]
  simp only [zero_add]
  rw [rejectIf_of_not _ (not_not.mpr rfl)]
  rfl

theorem checkedI64_error {value : Int} {e : ApiError} (h : checkedI64 value = .error e) :
    e = .internal := by
  rw [checkedI64] at h
  split at h
  · cases h
  · cases h
    rfl

theorem twiceMidrankNumerator_error {lowerNodes : Int} {e : ApiError}
    (h : twiceMidrankNumerator lowerNodes tiedNodes = .error e) : e = .internal := by
  by_contra hother
  exact bind_ne_error (fun hdoubled => hother (checkedI64_error hdoubled))
    (fun doubled _ => bind_ne_error (fun hraised => hother (checkedI64_error hraised))
      fun raised _ hlowered => hother (checkedI64_error hlowered)) h

/-- In a larger cohort the first group is refused. -/
theorem RankScan.step_of_large (hlarge : 2 ^ 62 < cohortNodes) :
    RankScan.step cohortNodes topPercent scan tiedNodes = .error .internal := by
  have hdenominator : twiceMidrankDenominator cohortNodes = .error .internal := by
    rw [twiceMidrankDenominator_eq (by omega), if_neg (by omega)]
  rw [RankScan.step, hdenominator]
  by_cases hrejected : tiedNodes ≤ 0 ∨ cohortNodes < saturatingAddI64 scan.lowerNodes tiedNodes
  · simp only [rejectIf, if_pos hrejected, bind, Except.bind]
  · rw [rejectIf_of_not _ hrejected]
    cases hnumerator : twiceMidrankNumerator scan.lowerNodes tiedNodes with
    | error e =>
        cases twiceMidrankNumerator_error hnumerator
        rfl
    | ok numerator => rfl

theorem topRankedNodes_of_large {groups : List Int} (hlarge : 2 ^ 62 < cohortNodes)
    (htotal : groups.sum = cohortNodes) :
    topRankedNodes cohortNodes topPercent groups = .error .internal := by
  rw [topRankedNodes]
  by_cases hrejected : cohortNodes < contributionRankPrivacyThreshold ∨
      ¬(1 ≤ topPercent ∧ topPercent ≤ 100)
  · simp only [rejectIf, if_pos hrejected, bind, Except.bind]
  · rw [rejectIf_of_not _ hrejected]
    cases groups with
    | nil =>
        rw [List.sum_nil] at htotal
        omega
    | cons group rest =>
        rw [List.foldlM_cons, RankScan.step_of_large hlarge]
        rfl

theorem topRankedNodes_ok {groups : List Int} {qualifying : Int}
    (htotal : groups.sum = cohortNodes)
    (h : topRankedNodes cohortNodes topPercent groups = .ok qualifying) :
    cohortNodes ≤ 2 ^ 62 ∧ 1 ≤ topPercent ∧ topPercent ≤ 100 := by
  constructor
  · by_contra hlarge
    rw [topRankedNodes_of_large (not_le.mp hlarge) htotal] at h
    cases h
  · rw [topRankedNodes, bind_eq_ok] at h
    obtain ⟨_, hguard, _⟩ := h
    rw [rejectIf_eq_ok] at hguard
    omega

end Scan

/-! ## The published counts -/

section Leaderboard
variable {cohortNodes zeroFailure100DaysNodes : Int} {groups : List Int}

/-- A published count is coarse, not small, and promises no more than the exact count. -/
def Published (cohortNodes : Int) (groups : List Int) (zeroFailure100DaysNodes : Int)
    (entry : NetworkHonorLeaderboardEntry) : Prop :=
  ∃ exact, exactQualifyingNodes cohortNodes groups zeroFailure100DaysNodes entry.label = .ok exact ∧
    networkHonorCountGranularity ∣ entry.qualifyingNodesLowerBound ∧
    contributionRankPrivacyThreshold ≤ entry.qualifyingNodesLowerBound ∧
    entry.qualifyingNodesLowerBound ≤ exact

theorem pushQuantizedHonorEntry_published {entries pushed : List NetworkHonorLeaderboardEntry}
    {label : NetworkHonorLabel} {exact : Int}
    (hexact : exactQualifyingNodes cohortNodes groups zeroFailure100DaysNodes label = .ok exact)
    (h : pushQuantizedHonorEntry entries label exact = .ok pushed)
    (hentries : ∀ entry ∈ entries, Published cohortNodes groups zeroFailure100DaysNodes entry) :
    ∀ entry ∈ pushed, Published cohortNodes groups zeroFailure100DaysNodes entry := by
  rw [pushQuantizedHonorEntry, bind_eq_ok] at h
  obtain ⟨_, hnonneg, h⟩ := h
  rw [rejectIf_eq_ok, not_lt] at hnonneg
  simp only [Int.tdiv_eq_ediv_of_nonneg hnonneg] at h
  split at h
  · next hthreshold =>
      rw [bind_eq_ok] at h
      obtain ⟨_, _, hpushed⟩ := h
      cases hpushed
      refine List.forall_mem_append.mpr ⟨hentries, List.forall_mem_singleton.mpr ?_⟩
      exact ⟨exact, hexact, Int.dvd_mul_left _ _, hthreshold,
        Int.ediv_mul_le exact (by decide)⟩
  · cases h
    exact hentries

theorem exactQualifyingNodes_of_band {item : NetworkHonorLabel × Int} (h : item ∈ honorBands) :
    exactQualifyingNodes cohortNodes groups zeroFailure100DaysNodes item.1 =
      topRankedNodes cohortNodes item.2 groups := by
  simp only [honorBands, List.mem_cons, List.not_mem_nil, or_false] at h
  rcases h with rfl | rfl | rfl | rfl | rfl <;> rfl

theorem pushBand_published {entries pushed : List NetworkHonorLeaderboardEntry}
    {item : NetworkHonorLabel × Int} (hitem : item ∈ honorBands)
    (h : pushBand cohortNodes groups entries item = .ok pushed)
    (hentries : ∀ entry ∈ entries, Published cohortNodes groups zeroFailure100DaysNodes entry) :
    ∀ entry ∈ pushed, Published cohortNodes groups zeroFailure100DaysNodes entry := by
  rw [pushBand, bind_eq_ok] at h
  obtain ⟨exact, hexact, hpush⟩ := h
  rw [← exactQualifyingNodes_of_band hitem] at hexact
  exact pushQuantizedHonorEntry_published hexact hpush hentries

theorem networkHonorLeaderboard_published {leaderboard : NetworkHonorLeaderboard}
    (h : networkHonorLeaderboard cohortNodes groups zeroFailure100DaysNodes = .ok leaderboard) :
    ∀ entry ∈ leaderboard.entries,
      Published cohortNodes groups zeroFailure100DaysNodes entry := by
  rw [networkHonorLeaderboard, bind_eq_ok] at h
  obtain ⟨_, _, h⟩ := h
  split at h
  · cases h
    exact List.forall_mem_nil _
  · simp only [bind_eq_ok] at h
    obtain ⟨bands, hbands, withCohort, hcohort, entries, hzero, hleaderboard⟩ := h
    cases hleaderboard
    have hbandsPublished : ∀ entry ∈ bands,
        Published cohortNodes groups zeroFailure100DaysNodes entry :=
      foldlM_preserves hbands (List.forall_mem_nil _)
        fun item hitem _ _ hpush hentries => pushBand_published hitem hpush hentries
    exact pushQuantizedHonorEntry_published rfl hzero
      (pushQuantizedHonorEntry_published rfl hcohort hbandsPublished)

end Leaderboard

/-! ## The bands -/

/-- What is said of the bands of one cohort: a count stands for a run of the best groups,
exactly for cohorts of up to `2 ^ 62` nodes. -/
theorem topRankedNodes_bands (cohortNodes : Int) (groups : List Int)
    (hpos : ∀ group ∈ groups, 0 < group) (htotal : groups.sum = cohortNodes)
    (hcohort : 5 ≤ cohortNodes) :
    (∀ topPercent, 1 ≤ topPercent → topPercent ≤ 100 → cohortNodes ≤ 2 ^ 62 →
      ∃ better, better <:+ groups ∧
        topRankedNodes cohortNodes topPercent groups = .ok better.sum ∧
        better.sum ≤ 1 + 2 * topPercent * (cohortNodes - 1) / 100) ∧
    (∀ topPercent, 2 ^ 62 < cohortNodes →
      topRankedNodes cohortNodes topPercent groups = .error .internal) ∧
    (∀ topPercent more qualifying moreQualifying, topPercent ≤ more →
      topRankedNodes cohortNodes topPercent groups = .ok qualifying →
      topRankedNodes cohortNodes more groups = .ok moreQualifying →
      qualifying ≤ moreQualifying) ∧
    ∀ zeroFailure100DaysNodes leaderboard,
      networkHonorLeaderboard cohortNodes groups zeroFailure100DaysNodes = .ok leaderboard →
      ∀ entry ∈ leaderboard.entries, ∃ exact,
        exactQualifyingNodes cohortNodes groups zeroFailure100DaysNodes entry.label = .ok exact ∧
        networkHonorCountGranularity ∣ entry.qualifyingNodesLowerBound ∧
        contributionRankPrivacyThreshold ≤ entry.qualifyingNodesLowerBound ∧
        entry.qualifyingNodesLowerBound ≤ exact := by
  refine ⟨?_, ?_, ?_, ?_⟩
  · intro topPercent hlow hhigh hsmall
    refine ⟨band cohortNodes topPercent 0 groups, band_suffix hpos,
      topRankedNodes_eq hcohort hsmall ⟨hlow, hhigh⟩ hpos htotal, ?_⟩
    have hbound : ((band cohortNodes topPercent 0 groups).sum - 1) * 100 ≤
        2 * topPercent * (cohortNodes - 1) :=
      band_sum_bound (by omega) (by omega) hpos (by omega)
    have hdiv := Int.le_ediv_of_mul_le (by decide) hbound
    omega
  · intro topPercent hlarge
    exact topRankedNodes_of_large hlarge htotal
  · intro topPercent more qualifying moreQualifying hle hqualifying hmore
    obtain ⟨hsmall, hpercent⟩ := topRankedNodes_ok htotal hqualifying
    obtain ⟨_, hmorePercent⟩ := topRankedNodes_ok htotal hmore
    rw [topRankedNodes_eq hcohort hsmall hpercent hpos htotal] at hqualifying
    rw [topRankedNodes_eq hcohort hsmall hmorePercent hpos htotal] at hmore
    cases hqualifying
    cases hmore
    exact band_sum_mono (by omega) hle hpos
  · intro zeroFailure100DaysNodes leaderboard h
    exact networkHonorLeaderboard_published h

/-- Three, three and four nodes with equal contributions, and a cohort beyond the words. -/
theorem topRankedNodes_bands_sample :
    (∃ better, better <:+ [3, 3, 4] ∧ topRankedNodes 10 50 [3, 3, 4] = .ok better.sum ∧
      better.sum ≤ 1 + 2 * 50 * (10 - 1) / 100) ∧
    topRankedNodes (2 ^ 62 + 1) 50 [2 ^ 62 + 1] = .error .internal ∧
    (4 : Int) ≤ 10 ∧
    ∃ leaderboard, networkHonorLeaderboard 10 [3, 3, 4] 7 = .ok leaderboard ∧
      leaderboard.entries = [⟨.contributor, 10⟩, ⟨.zeroFailure100Days, 5⟩] ∧
      ∀ entry ∈ leaderboard.entries, ∃ exact,
        exactQualifyingNodes 10 [3, 3, 4] 7 entry.label = .ok exact ∧
        networkHonorCountGranularity ∣ entry.qualifyingNodesLowerBound ∧
        contributionRankPrivacyThreshold ≤ entry.qualifyingNodesLowerBound ∧
        entry.qualifyingNodesLowerBound ≤ exact := by
  obtain ⟨hbands, -, hmono, hpublished⟩ :=
    topRankedNodes_bands 10 [3, 3, 4] (by decide) (by decide) (by decide)
  obtain ⟨-, hlarge, -, -⟩ :=
    topRankedNodes_bands (2 ^ 62 + 1) [2 ^ 62 + 1] (by decide) (by decide) (by decide)
  have hhalf : topRankedNodes 10 50 [3, 3, 4] = .ok 4 := by decide +kernel
  have hall : topRankedNodes 10 100 [3, 3, 4] = .ok 10 := by decide +kernel
  have hrun : ((networkHonorLeaderboard 10 [3, 3, 4] 7).toOption.map (·.entries)) =
      some [⟨.contributor, 10⟩, ⟨.zeroFailure100Days, 5⟩] := by decide +kernel
  refine ⟨hbands 50 (by decide) (by decide) (by decide), hlarge 50 (by decide),
    hmono 50 100 4 10 (by decide) hhalf hall, ?_⟩
  cases hleaderboard : networkHonorLeaderboard 10 [3, 3, 4] 7 with
  | error e =>
      rw [hleaderboard] at hrun
      cases hrun
  | ok leaderboard =>
      rw [hleaderboard] at hrun
      exact ⟨leaderboard, rfl, Option.some.inj hrun, hpublished 7 leaderboard hleaderboard⟩

/-- A cohort whose doubled rank leaves the word gets no count. -/
theorem topRankedNodes_bands_fails :
    ¬∀ (cohortNodes : Int) (groups : List Int) (topPercent : Int),
      (∀ group ∈ groups, 0 < group) → groups.sum = cohortNodes → 5 ≤ cohortNodes →
      Fits 64 cohortNodes → 1 ≤ topPercent → topPercent ≤ 100 →
      ∃ qualifying, topRankedNodes cohortNodes topPercent groups = .ok qualifying := by
  intro h
  obtain ⟨qualifying, hqualifying⟩ := h (2 ^ 62 + 1) [2 ^ 62 + 1] 50 (by decide) (by decide)
    (by decide) (fits_64.mpr (by decide)) (by decide) (by decide)
  have hrefused : topRankedNodes (2 ^ 62 + 1) 50 [2 ^ 62 + 1] = .error .internal := by
    decide +kernel
  rw [hrefused] at hqualifying
  cases hqualifying

end MindOne.Coordinator
