import Mathlib.Data.Nat.Log
import Mathlib.Tactic.Linarith
import Mathlib.Tactic.Positivity
import Mathlib.Tactic.Ring

/-!
# Decimal quotients of a database

The database divides two exact integers into a decimal with a bounded number of
fractional digits, rounded half away from zero. The number of digits depends on
the size of the operands in base 10000. Rounding an integer out of such a
quotient differs from the exact rounding only where the decimal has already
moved onto an integer.
-/

namespace PgNumeric

/-- A decimal: an integer coefficient over a power of ten. -/
structure Numeric where
  coefficient : Int
  scale : Nat
  deriving DecidableEq, Repr

def Numeric.ceil (value : Numeric) : Int := -(-value.coefficient / 10 ^ value.scale)

def Numeric.floor (value : Numeric) : Int := value.coefficient / 10 ^ value.scale

/-- The position of the leading digit in base 10000. -/
def weight (n : Int) : Nat := Nat.log 10000 n.natAbs

def leadingDigit (n : Int) : Nat := n.natAbs / 10000 ^ weight n

/-- The estimated weight of a quotient. -/
def quotientWeight (x y : Int) : Int :=
  (weight x : Int) - weight y - if leadingDigit x ≤ leadingDigit y then 1 else 0

/-- The fractional digits of a quotient of integers. -/
def divScale (x y : Int) : Nat := (16 - 4 * quotientWeight x y).toNat

/-- The nearest integer to a quotient, halves away from zero. -/
def roundHalfAway (n d : Int) : Int :=
  n.sign * ((2 * |n| + d) / (2 * d))

/-- `x / y` on integral decimals with a positive divisor. -/
def divide (x y : Int) : Numeric where
  coefficient := roundHalfAway (x * 10 ^ divScale x y) y
  scale := divScale x y

/-- The quotient is an integer, or its remainder is at least half a unit of the
last digit that is kept. -/
def KeepsRemainder (x y : Int) : Prop := y ∣ x ∨ y ≤ 2 * 10 ^ divScale x y * (x % y)

instance (x y : Int) : Decidable (KeepsRemainder x y) := inferInstanceAs (Decidable (_ ∨ _))

theorem ten_pow_pos (s : Nat) : (0 : Int) < 10 ^ s := by positivity

theorem Numeric.ceil_le_iff {value : Numeric} {k : Int} :
    value.ceil ≤ k ↔ value.coefficient ≤ k * 10 ^ value.scale := by
  have h := Int.le_ediv_iff_mul_le (a := -k) (b := -value.coefficient)
    (ten_pow_pos value.scale)
  rw [neg_mul] at h
  simp only [Numeric.ceil]
  constructor
  · intro hc
    have := h.mp (by omega)
    omega
  · intro hk
    have := h.mpr (by omega)
    omega

theorem Numeric.le_floor_iff {value : Numeric} {k : Int} :
    k ≤ value.floor ↔ k * 10 ^ value.scale ≤ value.coefficient :=
  Int.le_ediv_iff_mul_le (ten_pow_pos value.scale)

section Nonneg
variable {n d x y k : Int}

theorem roundHalfAway_eq (hn : 0 ≤ n) (hd : 0 < d) :
    roundHalfAway n d = (2 * n + d) / (2 * d) := by
  rcases hn.eq_or_lt with rfl | pos
  · simp only [roundHalfAway, Int.sign_zero, zero_mul, mul_zero, zero_add]
    exact (Int.ediv_eq_zero_of_lt hd.le (by omega)).symm
  · rw [roundHalfAway, Int.sign_eq_one_of_pos pos, abs_of_pos pos, one_mul]

theorem le_roundHalfAway_iff (hn : 0 ≤ n) (hd : 0 < d) :
    k ≤ roundHalfAway n d ↔ 2 * d * k ≤ 2 * n + d := by
  rw [roundHalfAway_eq hn hd, Int.le_ediv_iff_mul_le (by omega), mul_comm k]

theorem roundHalfAway_le_iff (hn : 0 ≤ n) (hd : 0 < d) :
    roundHalfAway n d ≤ k ↔ 2 * n < 2 * d * k + d := by
  have h := le_roundHalfAway_iff (k := k + 1) hn hd
  rw [mul_add, mul_one] at h
  constructor
  · intro hr
    by_contra hlt
    have := h.mpr (by omega)
    omega
  · intro hlt
    by_contra hr
    have := h.mp (by omega)
    omega

theorem ceil_divide_le_iff (hx : 0 ≤ x) (hy : 0 < y) :
    (divide x y).ceil ≤ k ↔ 2 * 10 ^ divScale x y * (x - y * k) < y := by
  rw [Numeric.ceil_le_iff, divide, roundHalfAway_le_iff (by positivity) hy]
  constructor
  · intro h
    linarith
  · intro h
    linarith

theorem le_floor_divide_iff (hx : 0 ≤ x) (hy : 0 < y) :
    k ≤ (divide x y).floor ↔ 2 * 10 ^ divScale x y * (y * k - x) ≤ y := by
  rw [Numeric.le_floor_iff, divide, le_roundHalfAway_iff (by positivity) hy]
  constructor
  · intro h
    linarith
  · intro h
    linarith

/-- The decimal ceiling is the exact one, unless the decimal has lost the remainder. -/
theorem ceil_divide_eq_iff {c : Int} (hx : 0 ≤ x) (hy : 0 < y)
    (hc : ∀ k, c ≤ k ↔ x ≤ k * y) : (divide x y).ceil = c ↔ KeepsRemainder x y := by
  have hpow := ten_pow_pos (divScale x y)
  have hcover : x ≤ c * y := (hc c).mp le_rfl
  have hle : (divide x y).ceil ≤ c := by
    rw [ceil_divide_le_iff hx hy]
    have : 2 * 10 ^ divScale x y * (x - y * c) ≤ 0 :=
      mul_nonpos_of_nonneg_of_nonpos (by positivity) (by linarith)
    omega
  have hlow := ceil_divide_le_iff (k := c - 1) hx hy
  have hrem : y ∣ x ∨ (x % y = x - y * (c - 1)) := by
    by_cases hdvd : y ∣ x
    · exact Or.inl hdvd
    · refine Or.inr ?_
      have hlt : ¬ x ≤ (c - 1) * y := fun h => by
        have := (hc (c - 1)).mpr h
        omega
      have hne : x ≠ c * y := fun h => hdvd ⟨c, by rw [h, mul_comm]⟩
      have hsplit : x = (x - y * (c - 1)) + y * (c - 1) := by ring
      rw [hsplit, Int.add_mul_emod_self_left, ← hsplit]
      refine Int.emod_eq_of_lt ?_ ?_
      · linarith
      · have : x < c * y := lt_of_le_of_ne hcover hne
        linarith
  constructor
  · intro heq
    have hnot : ¬ 2 * 10 ^ divScale x y * (x - y * (c - 1)) < y := fun h => by
      have := hlow.mpr h
      omega
    rcases hrem with hdvd | hmod
    · exact Or.inl hdvd
    · exact Or.inr (by rw [hmod]; omega)
  · intro hkeeps
    refine le_antisymm hle ?_
    by_contra hlt
    have hsmall := hlow.mp (by omega)
    rcases hkeeps with ⟨m, rfl⟩ | hkept
    · -- an exact quotient is one whole divisor above the integer below it
      have hm : c ≤ m := (hc m).mpr (by rw [mul_comm])
      have hm' : m ≤ c := by
        by_contra h
        have : y * c < y * m := mul_lt_mul_of_pos_left (by omega) hy
        linarith
      have : c = m := le_antisymm hm hm'
      subst this
      have : y * 1 ≤ y * (2 * 10 ^ divScale (y * c) y) :=
        mul_le_mul_of_nonneg_left (by omega) hy.le
      have hring : 2 * 10 ^ divScale (y * c) y * (y * c - y * (c - 1)) =
          y * (2 * 10 ^ divScale (y * c) y) := by ring
      omega
    · rcases hrem with hdvd | hmod
      · rw [Int.emod_eq_zero_of_dvd hdvd, mul_zero] at hkept
        omega
      · rw [hmod] at hkept
        omega

/-- The decimal floor is the exact one, unless the decimal has reached the next integer. -/
theorem floor_divide_eq_iff (hx : 0 ≤ x) (hy : 0 < y) :
    (divide x y).floor = x / y ↔ y < 2 * 10 ^ divScale x y * (y - x % y) := by
  have hsplit := Int.mul_ediv_add_emod x y
  have hmod := Int.emod_nonneg x hy.ne'
  have hlow : x / y ≤ (divide x y).floor := by
    rw [le_floor_divide_iff hx hy]
    have : 2 * 10 ^ divScale x y * (y * (x / y) - x) ≤ 0 :=
      mul_nonpos_of_nonneg_of_nonpos (by positivity) (by omega)
    omega
  have hnext := le_floor_divide_iff (k := x / y + 1) hx hy
  have hgap : y * (x / y + 1) - x = y - x % y := by
    rw [mul_add, mul_one]
    omega
  rw [hgap] at hnext
  constructor
  · intro heq
    by_contra hge
    have := hnext.mpr (by omega)
    omega
  · intro hlt
    refine le_antisymm ?_ hlow
    by_contra hgt
    have := hnext.mp (by omega)
    omega

end Nonneg

section Weights
variable {x y : Int} {j : Nat}

theorem pow_weight_le (hx : 0 < x) : (leadingDigit x : Int) * 10000 ^ weight x ≤ x := by
  have h : leadingDigit x * 10000 ^ weight x ≤ x.natAbs := Nat.div_mul_le_self _ _
  have hcast : ((leadingDigit x * 10000 ^ weight x : Nat) : Int) ≤ x.natAbs := by exact_mod_cast h
  rw [Int.natAbs_of_nonneg hx.le] at hcast
  exact_mod_cast hcast

theorem lt_pow_weight (hy : 0 < y) : y < (leadingDigit y + 1 : Int) * 10000 ^ weight y := by
  have h : y.natAbs < (leadingDigit y + 1) * 10000 ^ weight y := by
    have := Nat.lt_mul_div_succ y.natAbs (b := 10000 ^ weight y) (by positivity)
    rw [mul_comm] at this
    exact this
  have hcast : (y.natAbs : Int) < ((leadingDigit y + 1) * 10000 ^ weight y : Nat) := by
    exact_mod_cast h
  rw [Int.natAbs_of_nonneg hy.le] at hcast
  exact_mod_cast hcast

theorem leadingDigit_pos (hx : 0 < x) : 0 < leadingDigit x :=
  Nat.div_pos (Nat.pow_log_le_self _ (by omega)) (by positivity)

theorem lt_pow_weight_succ (hy : 0 < y) : y < 10000 ^ (weight y + 1) := by
  have h : y.natAbs < 10000 ^ (weight y + 1) := Nat.lt_pow_succ_log_self (by decide) _
  have hcast : (y.natAbs : Int) < (10000 ^ (weight y + 1) : Nat) := by exact_mod_cast h
  rw [Int.natAbs_of_nonneg hy.le] at hcast
  exact_mod_cast hcast

/-- The estimate is never above the size of the quotient. -/
theorem mul_pow_lt_of_le_quotientWeight (hx : 0 < x) (hy : 0 < y)
    (h : (j : Int) ≤ quotientWeight x y) : y * 10000 ^ j < x := by
  have hpow : (0 : Int) < 10000 ^ j := by positivity
  have hlead := pow_weight_le hx
  have hpos := leadingDigit_pos hx
  by_cases hdigits : leadingDigit x ≤ leadingDigit y
  · have hweight : weight y + 1 + j ≤ weight x := by
      rw [quotientWeight, if_pos hdigits] at h
      omega
    calc y * 10000 ^ j < 10000 ^ (weight y + 1) * 10000 ^ j :=
          mul_lt_mul_of_pos_right (lt_pow_weight_succ hy) hpow
      _ = 10000 ^ (weight y + 1 + j) := (pow_add _ _ _).symm
      _ ≤ 10000 ^ weight x := pow_le_pow_right₀ (by norm_num) hweight
      _ ≤ leadingDigit x * 10000 ^ weight x :=
          le_mul_of_one_le_left (by positivity) (by exact_mod_cast hpos)
      _ ≤ x := hlead
  · have hweight : weight y + j ≤ weight x := by
      rw [quotientWeight, if_neg hdigits] at h
      omega
    calc y * 10000 ^ j < (leadingDigit y + 1) * 10000 ^ weight y * 10000 ^ j :=
          mul_lt_mul_of_pos_right (lt_pow_weight hy) hpow
      _ = (leadingDigit y + 1) * 10000 ^ (weight y + j) := by rw [mul_assoc, ← pow_add]
      _ ≤ leadingDigit x * 10000 ^ weight x := by
          refine mul_le_mul ?_ (pow_le_pow_right₀ (by norm_num) hweight) (by positivity)
            (by positivity)
          exact_mod_cast Nat.lt_of_not_le hdigits
      _ ≤ x := hlead

/-- A quotient below a power of 10000 keeps the digits that the power leaves. -/
theorem le_divScale (hx : 0 < x) (hy : 0 < y) (h : x ≤ y * 10000 ^ j) :
    20 - 4 * (j : Int) ≤ divScale x y := by
  have hweight : quotientWeight x y < j := by
    by_contra hge
    have := mul_pow_lt_of_le_quotientWeight hx hy (not_lt.mp hge)
    omega
  rw [divScale]
  omega

end Weights

end PgNumeric
