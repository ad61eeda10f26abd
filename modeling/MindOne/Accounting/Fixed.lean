import MindOne.Lib.CheckedArithmetic

/-!
# Fixed-point settlement arithmetic

Amounts are whole microquota. The consumer's deduction is rounded up, the
node's spendable quota and contribution points are rounded down, and the
reserve receives the exact remainder. Words of 64 bits are integers with a
range check where the source converts; the 128-bit intermediates are checked
in the same places as in the source.
-/

namespace MindOne.Accounting

open CheckedArithmetic

inductive AccountingError where
  | negativeAmount (field : String)
  | overflow (operation : String)
  | insufficientBalance (required available : Int)
  | invalidLedger (message : String)
  | invalidPolicy (message : String)
  | invalidReserveRelease (message : String)
  | invalidBilling (message : String)
  deriving DecidableEq, Repr

abbrev Result (α : Type) := Except AccountingError α

/-- `i64::try_from` on a 128-bit intermediate. -/
def i64TryFrom (value : Int) (operation : String) : Result Int :=
  if Fits 64 value then .ok value else .error (.overflow operation)

/-- A checked 128-bit operation: the exact result, or the overflow error. -/
def checkedI128 (value : Int) (operation : String) : Result Int :=
  if Fits 128 value then .ok value else .error (.overflow operation)

/-- `i64::checked_add` with its error. -/
def checkedAdd (left right : Int) (operation : String) : Result Int :=
  i64TryFrom (left + right) operation

theorem i64TryFrom_eq_ok {value n : Int} {operation : String} :
    i64TryFrom value operation = .ok n ↔ Fits 64 value ∧ value = n := by
  by_cases h : Fits 64 value <;> simp [i64TryFrom, h]

theorem checkedI128_eq_ok {value n : Int} {operation : String} :
    checkedI128 value operation = .ok n ↔ Fits 128 value ∧ value = n := by
  by_cases h : Fits 128 value <;> simp [checkedI128, h]

theorem checkedAdd_eq_ok {left right n : Int} {operation : String} :
    checkedAdd left right operation = .ok n ↔ Fits 64 (left + right) ∧ left + right = n :=
  i64TryFrom_eq_ok

def microquotaPerQuota : Int := 1000000

def multiplierScale : Int := 1000

/-- A non-negative amount in the smallest unit. -/
structure MicroQuota where
  asI64 : Int
  nonneg : 0 ≤ asI64

namespace MicroQuota

instance : DecidableEq MicroQuota := fun a b =>
  decidable_of_iff (a.asI64 = b.asI64) (by cases a; cases b; simp)

def new (value : Int) : Result MicroQuota :=
  if h : value < 0 then .error (.negativeAmount "microquota") else .ok ⟨value, by omega⟩

def zero : MicroQuota := ⟨0, le_rfl⟩

def checkedAdd (self other : MicroQuota) : Result MicroQuota := do
  let value ← Accounting.checkedAdd self.asI64 other.asI64 "microquota 加法"
  new value

def checkedSub (self other : MicroQuota) : Result MicroQuota := do
  rejectIf (other.asI64 > self.asI64) (.insufficientBalance other.asI64 self.asI64)
  new (self.asI64 - other.asI64)

theorem new_eq_ok {value : Int} {q : MicroQuota} :
    new value = .ok q ↔ value = q.asI64 := by
  obtain ⟨n, hn⟩ := q
  by_cases h : value < 0
  · simp only [new, h, dite_true, reduceCtorEq, false_iff]
    omega
  · simp [new, h]

theorem checkedAdd_eq_ok {a b c : MicroQuota} :
    a.checkedAdd b = .ok c ↔ Fits 64 (a.asI64 + b.asI64) ∧ a.asI64 + b.asI64 = c.asI64 := by
  simp only [checkedAdd, bind_eq_ok, Accounting.checkedAdd_eq_ok, new_eq_ok]
  constructor
  · rintro ⟨n, ⟨fits, rfl⟩, h⟩
    exact ⟨fits, h⟩
  · rintro ⟨fits, h⟩
    exact ⟨_, ⟨fits, rfl⟩, h⟩

theorem checkedSub_eq_ok {a b c : MicroQuota} :
    a.checkedSub b = .ok c ↔ a.asI64 - b.asI64 = c.asI64 := by
  have hc := c.nonneg
  simp only [checkedSub, bind_eq_ok, rejectIf_eq_ok, new_eq_ok, exists_const]
  constructor
  · exact fun h => h.2
  · exact fun h => ⟨by omega, h⟩

end MicroQuota

inductive PerformanceTier where
  | high | medium | low
  deriving DecidableEq, Repr

def PerformanceTier.multiplierMilli : PerformanceTier → Int
  | .high => 1500
  | .medium => 1000
  | .low => 700

inductive TrustClass where
  | enhanced | standard | unverified
  deriving DecidableEq, Repr

def TrustClass.multiplierMilli : TrustClass → Int
  | .enhanced => 1100
  | .standard => 1000
  | .unverified => 500

theorem PerformanceTier.multiplierMilli_bounds (tier : PerformanceTier) :
    700 ≤ tier.multiplierMilli ∧ tier.multiplierMilli ≤ 1500 := by
  cases tier <;> decide

theorem TrustClass.multiplierMilli_bounds (trust : TrustClass) :
    500 ≤ trust.multiplierMilli ∧ trust.multiplierMilli ≤ 1100 := by
  cases trust <;> decide

def mulRatioCeil (value numerator denominator : Int) (operation : String) : Result Int := do
  let product ← checkedI128 (value * numerator) operation
  let adjusted ← checkedI128 (product + (denominator - 1)) operation
  i64TryFrom (adjusted.tdiv denominator) operation

def mulTwoRatiosFloor (value firstMilli secondMilli : Int) (operation : String) :
    Result Int := do
  let current ← checkedI128 (value * firstMilli) operation
  let product ← checkedI128 (current * secondMilli) operation
  i64TryFrom (product.tdiv (multiplierScale * multiplierScale)) operation

structure Settlement where
  baseCost : MicroQuota
  userDeduction : MicroQuota
  nodeSpendableQuota : MicroQuota
  nodeContributionPoints : MicroQuota
  reserveInflow : MicroQuota
  performanceTier : PerformanceTier
  trustClass : TrustClass

/-- The deduction is rounded up, both node amounts down, the reserve takes the rest. -/
def Settlement.calculate (baseCost : MicroQuota) (performanceTier : PerformanceTier)
    (trustClass : TrustClass) : Result Settlement := do
  let deduction ← mulRatioCeil baseCost.asI64 performanceTier.multiplierMilli
    multiplierScale "用户扣费"
  let userDeduction ← MicroQuota.new deduction
  let quota ← mulTwoRatiosFloor userDeduction.asI64 800 trustClass.multiplierMilli
    "节点可用额度"
  let nodeSpendableQuota ← MicroQuota.new quota
  let points ← mulTwoRatiosFloor userDeduction.asI64 1200 trustClass.multiplierMilli
    "节点贡献值"
  let nodeContributionPoints ← MicroQuota.new points
  let reserveInflow ← userDeduction.checkedSub nodeSpendableQuota
  return { baseCost, userDeduction, nodeSpendableQuota, nodeContributionPoints,
           reserveInflow, performanceTier, trustClass }

theorem mulRatioCeil_eq_ok {value numerator denominator n : Int} {operation : String} :
    mulRatioCeil value numerator denominator operation = .ok n ↔
      Fits 128 (value * numerator) ∧ Fits 128 (value * numerator + (denominator - 1)) ∧
      Fits 64 n ∧ ceilQuotient (value * numerator) denominator = n := by
  simp only [mulRatioCeil, bind_eq_ok, checkedI128_eq_ok, i64TryFrom_eq_ok, ceilQuotient]
  constructor
  · rintro ⟨_, ⟨h1, rfl⟩, _, ⟨h2, rfl⟩, h3, rfl⟩
    exact ⟨h1, h2, h3, rfl⟩
  · rintro ⟨h1, h2, h3, rfl⟩
    exact ⟨_, ⟨h1, rfl⟩, _, ⟨h2, rfl⟩, h3, rfl⟩

theorem mulTwoRatiosFloor_eq_ok {value first second n : Int} {operation : String} :
    mulTwoRatiosFloor value first second operation = .ok n ↔
      Fits 128 (value * first) ∧ Fits 128 (value * first * second) ∧
      Fits 64 n ∧ (value * first * second).tdiv 1000000 = n := by
  simp only [mulTwoRatiosFloor, bind_eq_ok, checkedI128_eq_ok, i64TryFrom_eq_ok,
    show multiplierScale * multiplierScale = 1000000 from rfl]
  constructor
  · rintro ⟨_, ⟨h1, rfl⟩, _, ⟨h2, rfl⟩, h3, rfl⟩
    exact ⟨h1, h2, h3, rfl⟩
  · rintro ⟨h1, h2, h3, rfl⟩
    exact ⟨_, ⟨h1, rfl⟩, _, ⟨h2, rfl⟩, h3, rfl⟩

/-- Everything a successful settlement says about its amounts. -/
theorem Settlement.calculate_spec {base : MicroQuota} {tier : PerformanceTier}
    {trust : TrustClass} {s : Settlement} (h : Settlement.calculate base tier trust = .ok s) :
    s.userDeduction.asI64 = ceilQuotient (base.asI64 * tier.multiplierMilli) 1000 ∧
    s.nodeSpendableQuota.asI64 =
      (s.userDeduction.asI64 * 800 * trust.multiplierMilli).tdiv 1000000 ∧
    s.nodeContributionPoints.asI64 =
      (s.userDeduction.asI64 * 1200 * trust.multiplierMilli).tdiv 1000000 ∧
    s.nodeSpendableQuota.asI64 + s.reserveInflow.asI64 = s.userDeduction.asI64 ∧
    Fits 64 s.userDeduction.asI64 ∧ Fits 64 s.nodeContributionPoints.asI64 ∧
    s.performanceTier = tier ∧ s.trustClass = trust := by
  simp only [Settlement.calculate, bind_eq_ok, mulRatioCeil_eq_ok, mulTwoRatiosFloor_eq_ok,
    MicroQuota.new_eq_ok, MicroQuota.checkedSub_eq_ok] at h
  obtain ⟨deduction, ⟨-, -, hfd, hd⟩, ud, hud, quota, ⟨-, -, -, hq⟩, nq, hnq,
    points, ⟨-, -, hfp, hp⟩, np, hnp, inflow, hi, hs⟩ := h
  cases hs
  subst hud hnq hnp
  have hsum : nq.asI64 + inflow.asI64 = ud.asI64 := by omega
  exact ⟨hd.symm, hq.symm, hp.symm, hsum, hfd, hfp, rfl, rfl⟩

/-- A share of at most the whole of a non-negative word is again a word, and the
two products on the way to it stay within 128 bits. -/
theorem mulTwoRatiosFloor_ok {value second : Int} (operation : String) (first : Int)
    (hvalue : 0 ≤ value) (hfits : Fits 64 value) (hfirst : 0 ≤ first ∧ first ≤ 1200)
    (hsecond : 0 ≤ second ∧ second ≤ 1100)
    (hn : Fits 64 ((value * first * second).tdiv 1000000)) :
    mulTwoRatiosFloor value first second operation =
      .ok ((value * first * second).tdiv 1000000) := by
  rw [fits_64] at hfits
  have hone : 0 ≤ value * first := mul_nonneg hvalue hfirst.1
  have hone' : value * first ≤ value * 1200 := mul_le_mul_of_nonneg_left hfirst.2 hvalue
  have htwo : 0 ≤ value * first * second := mul_nonneg hone hsecond.1
  have htwo' : value * first * second ≤ value * first * 1100 :=
    mul_le_mul_of_nonneg_left hsecond.2 hone
  refine mulTwoRatiosFloor_eq_ok.mpr ⟨?_, ?_, hn, rfl⟩
  · rw [fits_128]
    omega
  · rw [fits_128]
    omega

/-- The spendable share never exceeds the deduction it is taken from. -/
theorem quotaShare_le {deduction : Int} (trust : TrustClass) (hd : 0 ≤ deduction) :
    (deduction * 800 * trust.multiplierMilli).tdiv 1000000 ≤ deduction := by
  have hu := trust.multiplierMilli_bounds
  have hprod : 0 ≤ deduction * 800 * trust.multiplierMilli :=
    mul_nonneg (by omega) (by omega)
  have hle : deduction * 800 * trust.multiplierMilli ≤ deduction * 800 * 1100 :=
    mul_le_mul_of_nonneg_left hu.2 (by omega)
  have := tdiv_mul_le_self hprod (d := 1000000) (by norm_num)
  omega

/-- The settlement succeeds as soon as its deduction and its points fit a word:
the 128-bit products and the reserve subtraction cannot fail. -/
theorem Settlement.calculate_ok {base : MicroQuota} {tier : PerformanceTier}
    {trust : TrustClass} (hbase : Fits 64 base.asI64)
    (hd : Fits 64 (ceilQuotient (base.asI64 * tier.multiplierMilli) 1000))
    (hp : Fits 64 ((ceilQuotient (base.asI64 * tier.multiplierMilli) 1000 * 1200 *
      trust.multiplierMilli).tdiv 1000000)) :
    ∃ s, Settlement.calculate base tier trust = .ok s := by
  have hb := base.nonneg
  have ht := tier.multiplierMilli_bounds
  have hu := trust.multiplierMilli_bounds
  have hprod : 0 ≤ base.asI64 * tier.multiplierMilli := mul_nonneg hb (by omega)
  have hprod' : base.asI64 * tier.multiplierMilli ≤ base.asI64 * 1500 :=
    mul_le_mul_of_nonneg_left ht.2 hb
  have hud : 0 ≤ ceilQuotient (base.asI64 * tier.multiplierMilli) 1000 :=
    ceilQuotient_nonneg hprod (by norm_num)
  have hshare := quotaShare_le trust hud
  have hshare' : 0 ≤ (ceilQuotient (base.asI64 * tier.multiplierMilli) 1000 * 800 *
      trust.multiplierMilli).tdiv 1000000 :=
    tdiv_nonneg_of (mul_nonneg (by omega) (by omega)) (by norm_num)
  have hpoints : 0 ≤ (ceilQuotient (base.asI64 * tier.multiplierMilli) 1000 * 1200 *
      trust.multiplierMilli).tdiv 1000000 :=
    tdiv_nonneg_of (mul_nonneg (by omega) (by omega)) (by norm_num)
  have hdeduction : mulRatioCeil base.asI64 tier.multiplierMilli multiplierScale "用户扣费" =
      .ok (ceilQuotient (base.asI64 * tier.multiplierMilli) 1000) := by
    rw [fits_64] at hbase
    refine mulRatioCeil_eq_ok.mpr ⟨?_, ?_, hd, rfl⟩
    · rw [fits_128]
      omega
    · rw [fits_128, multiplierScale]
      omega
  have hquota := mulTwoRatiosFloor_ok "节点可用额度" 800 hud hd (by norm_num)
    ⟨by omega, hu.2⟩ (fits_of_between fits_zero hd hshare' hshare)
  have hcontribution := mulTwoRatiosFloor_ok "节点贡献值" 1200 hud hd
    (by norm_num) ⟨by omega, hu.2⟩ hp
  refine ⟨⟨base, ⟨_, hud⟩, ⟨_, hshare'⟩, ⟨_, hpoints⟩, ⟨_, Int.sub_nonneg_of_le hshare⟩,
    tier, trust⟩, ?_⟩
  simp only [Settlement.calculate, bind_eq_ok, hdeduction]
  exact ⟨_, rfl, ⟨_, hud⟩, MicroQuota.new_eq_ok.mpr rfl, _, hquota, ⟨_, hshare'⟩,
    MicroQuota.new_eq_ok.mpr rfl, _, hcontribution, ⟨_, hpoints⟩,
    MicroQuota.new_eq_ok.mpr rfl, ⟨_, _⟩, MicroQuota.checkedSub_eq_ok.mpr rfl, rfl⟩

end MindOne.Accounting
