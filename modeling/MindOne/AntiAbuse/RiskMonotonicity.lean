import MindOne.AntiAbuse.Decision

/-!
# More risk never looks safer

Signals that are at least as risky give no smaller score, block whatever was blocked and
give no larger weight. The signal of the autonomous system is not a category, so it
blocks nothing by itself. It adds points, though, and these decide where two categories
lie just below the bound.
-/

namespace MindOne.AntiAbuse

namespace RiskCounts

/-- A missing device is riskier than any number of its users. -/
def DeviceAtMost : Option Int → Option Int → Prop
  | _, none => True
  | some n, some m => n ≤ m
  | none, some _ => False

/-- A missing network is riskier than any other where it is required, and is no risk
elsewhere. -/
def NetworkAtMost (counts other : RiskCounts) : Prop :=
  match counts.ipUserCount, other.ipUserCount with
  | some n, some m => n ≤ m
  | none, some _ => counts.requireNetworkSignal = false
  | some _, none => other.requireNetworkSignal = true
  | none, none => counts.requireNetworkSignal = true → other.requireNetworkSignal = true

/-- A missing autonomous system is no risk. -/
def AsnAtMost : Option Int → Option Int → Prop
  | none, _ => True
  | some n, some m => n ≤ m
  | some _, none => False

/-- The other counts are component-wise at least as risky. -/
structure AtMost (counts other : RiskCounts) : Prop where
  device : DeviceAtMost counts.deviceUserCount other.deviceUserCount
  network : counts.NetworkAtMost other
  asn : AsnAtMost counts.asnUserCount other.asnUserCount
  reciprocal : counts.reciprocalEdgeRequests ≤ other.reciprocalEdgeRequests

end RiskCounts

theorem reaches_some {n threshold : Int} : reaches (some n) threshold ↔ threshold ≤ n := by
  simp [reaches]

theorem not_reaches_none {threshold : Int} : ¬reaches none threshold := by
  simp [reaches]

/-- Points for a signal that is only exceeded by riskier ones. -/
theorem ite_mono {c c' : Prop} [Decidable c] [Decidable c'] {top x y : Int} (hc : c → c')
    (htop : x ≤ top) (h : ¬c' → x ≤ y) : (if c then top else x) ≤ if c' then top else y := by
  by_cases hother : c'
  · rw [if_pos hother]
    split
    · exact le_rfl
    · exact htop
  · rw [if_neg hother, if_neg fun hcount => hother (hc hcount)]
    exact h hother

theorem ite_le_top {c : Prop} [Decidable c] {top x y : Int} (hx : x ≤ top) (hy : y ≤ top) :
    (if c then x else y) ≤ top := by
  split
  · exact hx
  · exact hy

namespace RiskCounts.AtMost
variable {counts other : RiskCounts} (h : counts.AtMost other)
include h

theorem devicePoints_le : devicePoints counts ≤ devicePoints other := by
  have hdevice := h.device
  have hblock : deviceBlockUsers = 3 := rfl
  refine ite_mono ?_ (ite_le_top (by decide) (by decide)) fun hnot =>
    ite_mono ?_ (by decide) fun _ => le_rfl
  · rintro (hmissing | ⟨n, hn, hle⟩)
    · cases hother : other.deviceUserCount with
      | none => exact .inl rfl
      | some m =>
          rw [hmissing, hother] at hdevice
          exact hdevice.elim
    · cases hother : other.deviceUserCount with
      | none => exact .inl rfl
      | some m =>
          rw [hn, hother] at hdevice
          exact .inr (reaches_some.mpr (hle.trans hdevice))
  · intro htwo
    cases hother : other.deviceUserCount with
    | none => exact absurd (.inl hother) hnot
    | some m =>
        rw [htwo, hother] at hdevice
        rw [hother, reaches_some] at hnot
        have hle : 2 ≤ m := hdevice
        exact congrArg some (by omega)

theorem reaches_network {threshold : Int} (hreaches : reaches counts.ipUserCount threshold)
    (hsignal : ¬(other.requireNetworkSignal = true ∧ other.ipUserCount = none)) :
    reaches other.ipUserCount threshold := by
  have hnetwork := h.network
  simp only [NetworkAtMost] at hnetwork
  obtain ⟨n, hn, hle⟩ := hreaches
  cases hother : other.ipUserCount with
  | none =>
      rw [hn, hother] at hnetwork
      exact absurd ⟨hnetwork, hother⟩ hsignal
  | some m =>
      rw [hn, hother] at hnetwork
      exact reaches_some.mpr (hle.trans hnetwork)

theorem missing_network
    (hmissing : counts.requireNetworkSignal = true ∧ counts.ipUserCount = none) :
    other.requireNetworkSignal = true ∧ other.ipUserCount = none := by
  have hnetwork := h.network
  simp only [NetworkAtMost] at hnetwork
  cases hother : other.ipUserCount with
  | none =>
      rw [hmissing.2, hother] at hnetwork
      exact ⟨hnetwork hmissing.1, rfl⟩
  | some m =>
      rw [hmissing.2, hother] at hnetwork
      exact absurd hmissing.1 (Bool.eq_false_iff.mp hnetwork)

theorem networkPoints_le : networkPoints counts ≤ networkPoints other :=
  ite_mono h.missing_network (ite_le_top (by decide) (ite_le_top (by decide) (by decide)))
    fun hsignal => ite_mono (fun hlarge => h.reaches_network hlarge hsignal)
      (ite_le_top (by decide) (by decide)) fun _ =>
        ite_mono (fun hshared => h.reaches_network hshared hsignal) (by decide) fun _ => le_rfl

theorem asnPoints_le : asnPoints counts ≤ asnPoints other := by
  have hasn := h.asn
  have hreaches : ∀ threshold, reaches counts.asnUserCount threshold →
      reaches other.asnUserCount threshold := by
    rintro threshold ⟨n, hn, hle⟩
    cases hother : other.asnUserCount with
    | none =>
        rw [hn, hother] at hasn
        exact hasn.elim
    | some m =>
        rw [hn, hother] at hasn
        exact reaches_some.mpr (hle.trans hasn)
  exact ite_mono (hreaches _) (ite_le_top (by decide) (by decide)) fun _ =>
    ite_mono (hreaches _) (by decide) fun _ => le_rfl

theorem reciprocalPoints_le : reciprocalPoints counts ≤ reciprocalPoints other := by
  have hreciprocal := h.reciprocal
  exact ite_mono (fun hloop => hloop.trans hreciprocal) (ite_le_top (by decide) (by decide))
    fun _ => ite_mono (fun hloop => hloop.trans hreciprocal) (by decide) fun _ => le_rfl

theorem totalPoints_le : totalPoints counts ≤ totalPoints other := by
  have hd := h.devicePoints_le
  have hn := h.networkPoints_le
  have ha := h.asnPoints_le
  have hr := h.reciprocalPoints_le
  simp only [totalPoints]
  omega

theorem hardBlock (hblock : counts.HardBlock) : other.HardBlock := by
  have hdevice := h.device
  rcases hblock with hmissing | ⟨n, hn, hle⟩ | hmissing | hreciprocal
  · cases hother : other.deviceUserCount with
    | none => exact .inl hother
    | some m =>
        rw [hmissing, hother] at hdevice
        exact hdevice.elim
  · cases hother : other.deviceUserCount with
    | none => exact .inl hother
    | some m =>
        rw [hn, hother] at hdevice
        exact .inr (.inl ⟨m, hother, hle.trans hdevice⟩)
  · exact .inr (.inr (.inl (h.missing_network hmissing)))
  · exact .inr (.inr (.inr (hreciprocal.trans h.reciprocal)))

/-- A category is lost only where its signal blocks at once. -/
theorem categories_le (hallow : ¬other.HardBlock) : categories counts ≤ categories other := by
  have hdevice := h.device
  have hreciprocal := h.reciprocal
  simp only [RiskCounts.HardBlock, not_or] at hallow
  obtain ⟨hpresent, hfew, hsignal, hloop⟩ := hallow
  have hdeviceLe : (if counts.deviceUserCount = some 2 then 1 else 0) ≤
      if other.deviceUserCount = some 2 then 1 else 0 := by
    split
    · next htwo =>
        cases hother : other.deviceUserCount with
        | none => exact absurd hother hpresent
        | some m =>
            rw [htwo, hother] at hdevice
            rw [hother, reaches_some, deviceBlockUsers] at hfew
            have hle : 2 ≤ m := hdevice
            rw [if_pos (congrArg some (by omega))]
    · omega
  have hnetworkLe : (if reaches counts.ipUserCount ipPrefixSharedUsers then 1 else 0) ≤
      if reaches other.ipUserCount ipPrefixSharedUsers then 1 else 0 := by
    split
    · next hshared => rw [if_pos (h.reaches_network hshared hsignal)]
    · omega
  have hreciprocalLe : (if 5 ≤ counts.reciprocalEdgeRequests ∧
        counts.reciprocalEdgeRequests < reciprocalBlockRequests then 1 else 0) ≤
      if 5 ≤ other.reciprocalEdgeRequests ∧
        other.reciprocalEdgeRequests < reciprocalBlockRequests then 1 else 0 := by
    split
    · rw [if_pos (by omega)]
    · omega
  exact Nat.add_le_add (Nat.add_le_add hdeviceLe hnetworkLe) hreciprocalLe

end RiskCounts.AtMost

theorem contributionWeightPpm_bounds (disposition : AntiAbuseDisposition) (score : Int) :
    0 ≤ contributionWeightPpm disposition score ∧
      contributionWeightPpm disposition score ≤ 1000000 := by
  cases disposition with
  | block => exact ⟨le_rfl, Int.zero_le_ofNat 1000000⟩
  | allow =>
      simp only [contributionWeightPpm]
      split <;> decide

theorem contributionWeightPpm_anti {disposition other : AntiAbuseDisposition} {score score' : Int}
    (hblock : disposition = .block → other = .block) (hscore : score ≤ score') :
    contributionWeightPpm other score' ≤ contributionWeightPpm disposition score := by
  cases disposition with
  | block =>
      rw [hblock rfl]
      exact le_rfl
  | allow =>
      cases other with
      | block => exact (contributionWeightPpm_bounds .allow score).1
      | allow =>
          simp only [contributionWeightPpm]
          split
          · split <;> decide
          · rw [if_neg (by omega)]

/-! ## The signal of the autonomous system -/

def RiskCounts.withAsn (counts : RiskCounts) (asnUserCount : Option Int) : RiskCounts :=
  { counts with asnUserCount }

/-- Two categories that lie just below the bound: a shared address prefix together with
either a shared device or an emerging loop. -/
def RiskCounts.Borderline (counts : RiskCounts) : Prop :=
  ¬counts.HardBlock ∧ reaches counts.ipUserCount ipPrefixSharedUsers ∧
    ¬reaches counts.ipUserCount ipPrefixLargeSharedUsers ∧
    ¬(counts.deviceUserCount = some 2 ↔ 5 ≤ counts.reciprocalEdgeRequests)

/-- The points without those of the autonomous system. -/
def basePoints (counts : RiskCounts) : Int :=
  devicePoints counts + networkPoints counts + reciprocalPoints counts

theorem borderline_iff (counts : RiskCounts) (hallow : ¬counts.HardBlock) :
    (counts.Borderline → 2 ≤ categories counts ∧ basePoints counts = 600000) ∧
    (2 ≤ categories counts → ¬counts.Borderline → 700000 ≤ basePoints counts) := by
  have hblock := hallow
  simp only [RiskCounts.HardBlock, not_or] at hblock
  obtain ⟨hpresent, hfew, hsignal, hloop⟩ := hblock
  have hlarge : reaches counts.ipUserCount ipPrefixLargeSharedUsers →
      reaches counts.ipUserCount ipPrefixSharedUsers := fun h => reaches_mono h (by decide)
  rw [RiskCounts.Borderline, categories, basePoints, devicePoints, networkPoints,
    reciprocalPoints, if_neg (not_or.mpr ⟨hpresent, hfew⟩), if_neg hsignal, if_neg hloop]
  have hemerging : (5 ≤ counts.reciprocalEdgeRequests ∧
      counts.reciprocalEdgeRequests < reciprocalBlockRequests) ↔
      5 ≤ counts.reciprocalEdgeRequests := and_iff_left (Int.not_le.mp hloop)
  simp only [hemerging, hallow, not_false_eq_true, true_and]
  by_cases hcrowded : reaches counts.ipUserCount ipPrefixLargeSharedUsers
  · by_cases hdevice : counts.deviceUserCount = some 2 <;>
      by_cases hreciprocal : 5 ≤ counts.reciprocalEdgeRequests <;>
      simp [hlarge hcrowded, hcrowded, hdevice, hreciprocal]
  · by_cases hshared : reaches counts.ipUserCount ipPrefixSharedUsers <;>
      by_cases hdevice : counts.deviceUserCount = some 2 <;>
      by_cases hreciprocal : 5 ≤ counts.reciprocalEdgeRequests <;>
      simp [hshared, hcrowded, hdevice, hreciprocal]

theorem asnPoints_cases (counts : RiskCounts) :
    asnPoints counts ≤ 200000 ∧
      (reaches counts.asnUserCount asnSharedUsers → 100000 ≤ asnPoints counts) ∧
      (¬reaches counts.asnUserCount asnSharedUsers → asnPoints counts = 0) := by
  simp only [asnPoints]
  split
  · next hlarge => exact ⟨le_rfl, fun _ => by decide, fun hnot =>
      absurd (reaches_mono hlarge (by decide)) hnot⟩
  · split
    · next hshared => exact ⟨by decide, fun _ => le_rfl, fun hnot => absurd hshared hnot⟩
    · next hnot => exact ⟨by decide, fun hshared => absurd hshared hnot, fun _ => rfl⟩

/-- In the borderline cases the autonomous system decides, and nowhere else. -/
theorem disposition_withAsn (counts : RiskCounts) (asnUserCount : Option Int) :
    (deterministicDecision (counts.withAsn asnUserCount)).disposition = .block ↔
      counts.HardBlock ∨ 2 ≤ categories counts ∧
        (counts.Borderline → reaches asnUserCount asnSharedUsers) := by
  have hdisposition : (deterministicDecision (counts.withAsn asnUserCount)).disposition = .block ↔
      counts.HardBlock ∨ 2 ≤ categories counts ∧
        700000 ≤ totalPoints (counts.withAsn asnUserCount) :=
    (deterministicDecision_eq (counts.withAsn asnUserCount)).2.1
  have htotal : totalPoints (counts.withAsn asnUserCount) =
      basePoints counts + asnPoints (counts.withAsn asnUserCount) := by
    have hrest : basePoints (counts.withAsn asnUserCount) = basePoints counts := rfl
    rw [← hrest, totalPoints, basePoints]
    omega
  have hpoints := asnPoints_cases (counts.withAsn asnUserCount)
  have hnonneg := (points_bounds (counts.withAsn asnUserCount)).2.2.1
  refine hdisposition.trans (or_congr_right' fun hallow => and_congr_right fun htwo => ?_)
  obtain ⟨hborderline, hclear⟩ := borderline_iff counts hallow
  rw [htotal]
  by_cases h : counts.Borderline
  · obtain ⟨-, hbase⟩ := hborderline h
    refine ⟨fun henough _ => ?_, fun hreaches => ?_⟩
    · by_contra hnot
      have := hpoints.2.2 hnot
      omega
    · have := hpoints.2.1 (hreaches h)
      omega
  · have := hclear htwo h
    exact ⟨fun _ hcontra => absurd hcontra h, fun _ => by omega⟩

theorem disposition_withAsn_ne (counts : RiskCounts) (asnUserCount other : Option Int) :
    (deterministicDecision (counts.withAsn asnUserCount)).disposition ≠
        (deterministicDecision (counts.withAsn other)).disposition ↔
      counts.Borderline ∧
        ¬(reaches asnUserCount asnSharedUsers ↔ reaches other asnSharedUsers) := by
  have hasn := disposition_withAsn counts asnUserCount
  have hother := disposition_withAsn counts other
  have hsame : ∀ d d' : AntiAbuseDisposition, d ≠ d' ↔ ¬(d = .block ↔ d' = .block) := by
    rintro (_ | _) (_ | _) <;> decide
  rw [hsame, hasn, hother]
  by_cases h : counts.Borderline
  · have htwo := ((borderline_iff counts h.1).1 h).1
    simp only [h, h.1, htwo, false_or, true_and, true_implies]
  · simp only [h, false_implies, false_and, not_true]

/-- Riskier signals never look safer, and nothing overflows. The autonomous system changes the
disposition only in the borderline cases. -/
theorem deterministicDecision_monotone :
    (∀ counts other : RiskCounts, counts.AtMost other →
      (deterministicDecision counts).riskScorePpm ≤ (deterministicDecision other).riskScorePpm ∧
      ((deterministicDecision counts).disposition = .block →
        (deterministicDecision other).disposition = .block) ∧
      (deterministicDecision other).contributionWeightPpm ≤
        (deterministicDecision counts).contributionWeightPpm) ∧
    (∀ counts : RiskCounts, (0 ≤ (deterministicDecision counts).riskScorePpm ∧
        (deterministicDecision counts).riskScorePpm ≤ 1000000) ∧
      0 ≤ (deterministicDecision counts).contributionWeightPpm ∧
        (deterministicDecision counts).contributionWeightPpm ≤ 1000000) ∧
    (∀ counts : RiskCounts, deterministicDecision counts = decisionWith unbounded counts) ∧
    ∀ (counts : RiskCounts) (asnUserCount other : Option Int),
      (deterministicDecision (counts.withAsn asnUserCount)).disposition ≠
          (deterministicDecision (counts.withAsn other)).disposition ↔
        counts.Borderline ∧
          ¬(reaches asnUserCount asnSharedUsers ↔ reaches other asnSharedUsers) := by
  refine ⟨fun counts other h => ?_, fun counts => ?_, decisionWith_saturating,
    disposition_withAsn_ne⟩
  · obtain ⟨hscore, hblock, hweight⟩ := deterministicDecision_eq counts
    obtain ⟨hscore', hblock', hweight'⟩ := deterministicDecision_eq other
    have hle := h.totalPoints_le
    have hscores : (deterministicDecision counts).riskScorePpm ≤
        (deterministicDecision other).riskScorePpm := by omega
    have hblocks : (deterministicDecision counts).disposition = .block →
        (deterministicDecision other).disposition = .block := by
      rw [hblock, hblock']
      rintro (hhard | ⟨htwo, henough⟩)
      · exact .inl (h.hardBlock hhard)
      · by_cases hhard : other.HardBlock
        · exact .inl hhard
        · exact .inr ⟨htwo.trans (h.categories_le hhard), henough.trans hle⟩
    refine ⟨hscores, hblocks, ?_⟩
    rw [hweight, hweight']
    exact contributionWeightPpm_anti hblocks hscores
  · obtain ⟨hscore, -, hweight⟩ := deterministicDecision_eq counts
    obtain ⟨⟨hd, -⟩, hn, ha, hr⟩ := points_bounds counts
    have htotal : 0 ≤ totalPoints counts := by
      simp only [totalPoints]
      omega
    refine ⟨⟨by omega, by omega⟩, ?_⟩
    rw [hweight]
    exact contributionWeightPpm_bounds _ _

/-- A shared device on a shared prefix is allowed, and a shared device in a loop is not. -/
theorem deterministicDecision_monotone_sample :
    (deterministicDecision ⟨some 2, some 3, none, 0, true⟩).disposition = .allow ∧
    (deterministicDecision ⟨some 2, some 3, none, 5, true⟩).disposition = .block ∧
    (deterministicDecision ⟨some 2, some 3, none, 0, true⟩).riskScorePpm ≤
      (deterministicDecision ⟨some 2, some 3, none, 5, true⟩).riskScorePpm :=
  ⟨by decide, by decide,
    (deterministicDecision_monotone.1 ⟨some 2, some 3, none, 0, true⟩ ⟨some 2, some 3, none, 5, true⟩
      ⟨le_refl (2 : Int), le_refl (3 : Int), trivial, by decide⟩).1⟩

/-- A shared autonomous system tips the scales against a shared device on a shared prefix. -/
theorem deterministicDecision_monotone_fails :
    ¬∀ (counts : RiskCounts) (asnUserCount : Option Int),
      (deterministicDecision (counts.withAsn asnUserCount)).disposition =
        (deterministicDecision counts).disposition := by
  intro h
  have hflip := h ⟨some 2, some 3, some 9, 0, true⟩ (some 10)
  exact absurd hflip (by decide)

end MindOne.AntiAbuse
