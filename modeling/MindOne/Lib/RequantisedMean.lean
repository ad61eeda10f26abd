import Mathlib.Algebra.Order.Field.Basic
import Mathlib.Data.Rat.Cast.Order
import Mathlib.Tactic.Linarith
import Mathlib.Tactic.Positivity
import Mathlib.Tactic.Ring

/-!
# A mean that is rounded at every step

A mean is stored as an integer beside its weight. A new value is merged by the weighted
sum, divided by the new weight and rounded to a nearest integer, so every step moves the
mean by at most half a unit. The error of earlier steps is only diluted, so the
stored mean is off by at most half a unit for each step.
-/

namespace RequantisedMean

/-- A stored mean with its weight, or a value with its multiplicity. -/
structure Weighted where
  value : Int
  weight : Int
  deriving DecidableEq, Repr

def Weighted.sum (a : Weighted) : Int := a.value * a.weight

def totalSum (start : Weighted) (values : List Weighted) : Int :=
  start.sum + (values.map Weighted.sum).sum

def totalWeight (start : Weighted) (values : List Weighted) : Int :=
  start.weight + (values.map Weighted.weight).sum

/-- The nearest integer, halves up. -/
def roundHalfUp (sum weight : Int) : Int := (sum + weight / 2) / weight

def merge (mean value : Weighted) : Weighted where
  value := roundHalfUp (mean.sum + value.sum) (mean.weight + value.weight)
  weight := mean.weight + value.weight

section Rounding
variable {sum weight bound : Int}

theorem roundHalfUp_near (sum : Int) (hweight : 0 < weight) :
    |2 * (roundHalfUp sum weight * weight - sum)| ≤ weight := by
  have hdiv := Int.mul_ediv_add_emod (sum + weight / 2) weight
  have hnonneg := Int.emod_nonneg (sum + weight / 2) hweight.ne'
  have hlt := Int.emod_lt_of_pos (sum + weight / 2) hweight
  rw [mul_comm] at hdiv
  rw [roundHalfUp, abs_le]
  omega

theorem roundHalfUp_nonneg (hweight : 0 < weight) (hsum : 0 ≤ sum) :
    0 ≤ roundHalfUp sum weight :=
  Int.ediv_nonneg (by omega) hweight.le

theorem roundHalfUp_le (hweight : 0 < weight) (hsum : sum ≤ bound * weight) :
    roundHalfUp sum weight ≤ bound := by
  have hlt : sum + weight / 2 < (bound + 1) * weight := by
    rw [add_mul]
    omega
  exact Int.lt_add_one_iff.mp (Int.ediv_lt_of_lt_mul hweight hlt)

end Rounding

section Fold
variable {bound : Int} {start : Weighted} {values : List Weighted}

/-- Within the bound and of a weight that counts. -/
structure Weighted.Within (bound : Int) (a : Weighted) : Prop where
  nonneg : 0 ≤ a.value
  le : a.value ≤ bound
  weight : 0 ≤ a.weight

theorem Weighted.Within.sum_nonneg {a : Weighted} (h : a.Within bound) : 0 ≤ a.sum :=
  mul_nonneg h.nonneg h.weight

theorem Weighted.Within.sum_le {a : Weighted} (h : a.Within bound) : a.sum ≤ bound * a.weight :=
  mul_le_mul_of_nonneg_right h.le h.weight

theorem merge_within {mean value : Weighted} (hmean : mean.Within bound)
    (hvalue : value.Within bound) (hpos : 0 < value.weight) :
    (merge mean value).Within bound := by
  have hweight : 0 < mean.weight + value.weight := by
    have := hmean.weight
    omega
  have hsum : mean.sum + value.sum ≤ bound * (mean.weight + value.weight) := by
    rw [mul_add]
    exact add_le_add hmean.sum_le hvalue.sum_le
  exact ⟨roundHalfUp_nonneg hweight (add_nonneg hmean.sum_nonneg hvalue.sum_nonneg),
    roundHalfUp_le hweight hsum, hweight.le⟩

theorem foldl_merge_weight :
    (values.foldl merge start).weight = totalWeight start values := by
  induction values generalizing start with
  | nil => simp [totalWeight]
  | cons value rest ih =>
      rw [List.foldl_cons, ih]
      simp [totalWeight, merge, add_assoc]

theorem sum_weights_nonneg (hpos : ∀ value ∈ values, 0 < value.weight) :
    0 ≤ (values.map Weighted.weight).sum := by
  refine List.sum_nonneg fun weight hweight => ?_
  obtain ⟨value, hvalue, rfl⟩ := List.mem_map.mp hweight
  exact (hpos value hvalue).le

/-- Each step adds half a unit of error at most. -/
theorem foldl_merge_near (hstart : 0 ≤ start.weight) (hpos : ∀ value ∈ values, 0 < value.weight) :
    |2 * ((values.foldl merge start).value * totalWeight start values -
        totalSum start values)| ≤ values.length * totalWeight start values := by
  induction values generalizing start with
  | nil => simp [totalWeight, totalSum, Weighted.sum]
  | cons value rest ih =>
      obtain ⟨hvalue, hrest⟩ := List.forall_mem_cons.mp hpos
      have hweight : 0 < start.weight + value.weight := by omega
      have hnear := roundHalfUp_near (start.sum + value.sum) hweight
      have hlater := @ih (merge start value) hweight.le hrest
      have htotal : totalWeight (merge start value) rest = totalWeight start (value :: rest) := by
        simp [totalWeight, merge, add_assoc]
      have hle : start.weight + value.weight ≤ totalWeight start (value :: rest) := by
        have := sum_weights_nonneg hrest
        simp only [totalWeight, List.map_cons, List.sum_cons]
        omega
      have hsum : totalSum start (value :: rest) = totalSum (merge start value) rest -
          (roundHalfUp (start.sum + value.sum) (start.weight + value.weight) *
            (start.weight + value.weight) - (start.sum + value.sum)) := by
        simp only [totalSum, merge, Weighted.sum, List.map_cons, List.sum_cons]
        ring
      rw [htotal] at hlater
      rw [List.foldl_cons, hsum, List.length_cons]
      rw [abs_le] at hnear hlater ⊢
      push_cast
      rw [add_mul, one_mul]
      constructor <;> linarith

/-- The stored mean against the exact one. -/
theorem foldl_merge_error (hstart : 0 ≤ start.weight)
    (hpos : ∀ value ∈ values, 0 < value.weight) (hnonempty : values ≠ []) :
    |((values.foldl merge start).value : ℚ) -
        (totalSum start values : ℚ) / totalWeight start values| ≤ values.length / 2 := by
  have htotal : 0 < totalWeight start values := by
    cases values with
    | nil => exact absurd rfl hnonempty
    | cons value rest =>
        obtain ⟨hvalue, hrest⟩ := List.forall_mem_cons.mp hpos
        have := sum_weights_nonneg hrest
        simp only [totalWeight, List.map_cons, List.sum_cons]
        omega
  have hpositive : (0 : ℚ) < totalWeight start values := Int.cast_pos.mpr htotal
  have hnear : |2 * (((values.foldl merge start).value : ℚ) * totalWeight start values -
      totalSum start values)| ≤ values.length * totalWeight start values := by
    exact_mod_cast foldl_merge_near hstart hpos
  have heq : ((values.foldl merge start).value : ℚ) -
      (totalSum start values : ℚ) / totalWeight start values =
      (((values.foldl merge start).value : ℚ) * totalWeight start values -
        totalSum start values) / totalWeight start values := by
    rw [sub_div, mul_div_cancel_right₀ _ hpositive.ne']
  rw [heq, abs_div, abs_of_pos hpositive, div_le_iff₀ hpositive]
  rw [abs_mul, abs_two] at hnear
  linarith

end Fold

end RequantisedMean
