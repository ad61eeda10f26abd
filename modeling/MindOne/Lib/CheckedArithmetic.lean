import Mathlib.Data.List.Forall2
import Mathlib.Data.Rat.Floor
import Mathlib.Tactic.Linarith
import Mathlib.Tactic.Positivity
import Mathlib.Tactic.NormNum
import Mathlib.Tactic.Ring

/-!
# Checked machine integers and one-sided rounding

A signed word of `bits` bits is an integer in a half-open range. Operations on
words are integer operations followed by a range check, and division truncates
toward zero. The rounding lemmas are stated by their Galois property, so a
proof about a rounded quotient never opens the division.
-/

universe u v

namespace CheckedArithmetic

/-- The integers that a signed word of the given width can hold. -/
def Fits (bits : Nat) (n : Int) : Prop :=
  -(2 : Int) ^ (bits - 1) ≤ n ∧ n < (2 : Int) ^ (bits - 1)

instance (bits : Nat) (n : Int) : Decidable (Fits bits n) :=
  inferInstanceAs (Decidable (_ ∧ _))

theorem fits_64 {n : Int} :
    Fits 64 n ↔ -9223372036854775808 ≤ n ∧ n < 9223372036854775808 := by
  simp only [Fits]
  norm_num

theorem fits_128 {n : Int} :
    Fits 128 n ↔ -170141183460469231731687303715884105728 ≤ n ∧
      n < 170141183460469231731687303715884105728 := by
  simp only [Fits]
  norm_num

theorem fits_of_between {bits : Nat} {lo n hi : Int} (hlo : Fits bits lo)
    (hhi : Fits bits hi) (hl : lo ≤ n) (hh : n ≤ hi) : Fits bits n :=
  ⟨hlo.1.trans hl, hh.trans_lt hhi.2⟩

theorem fits_zero {bits : Nat} : Fits bits 0 := by
  have h : (0 : Int) < 2 ^ (bits - 1) := by positivity
  exact ⟨by omega, h⟩

section Rounding
variable {n d k : Int}

/-- The least integer at or above `n / d`, in the form a program computes it. -/
def ceilQuotient (n d : Int) : Int := (n + (d - 1)).tdiv d

theorem tdiv_le_iff (hn : 0 ≤ n) (hd : 0 < d) : k ≤ n.tdiv d ↔ k * d ≤ n := by
  rw [Int.tdiv_eq_ediv_of_nonneg hn]
  exact Int.le_ediv_iff_mul_le hd

theorem ceilQuotient_le_iff (hn : 0 ≤ n) (hd : 0 < d) :
    ceilQuotient n d ≤ k ↔ n ≤ k * d := by
  have h := tdiv_le_iff (n := n + (d - 1)) (k := k + 1) (by omega) hd
  have hm : (k + 1) * d = k * d + d := by ring
  rw [hm] at h
  simp only [ceilQuotient]
  constructor
  · intro hc
    by_contra hk
    have := h.mpr (by omega)
    omega
  · intro hk
    by_contra hc
    have := h.mp (by omega)
    omega

theorem le_ceilQuotient_mul (hn : 0 ≤ n) (hd : 0 < d) : n ≤ ceilQuotient n d * d :=
  (ceilQuotient_le_iff hn hd).mp le_rfl

theorem tdiv_mul_le_self (hn : 0 ≤ n) (hd : 0 < d) : n.tdiv d * d ≤ n :=
  (tdiv_le_iff hn hd).mp le_rfl

theorem tdiv_nonneg_of (hn : 0 ≤ n) (hd : 0 < d) : 0 ≤ n.tdiv d :=
  (tdiv_le_iff hn hd).mpr (by omega)

theorem ceilQuotient_nonneg (hn : 0 ≤ n) (hd : 0 < d) : 0 ≤ ceilQuotient n d :=
  tdiv_nonneg_of (by omega) hd

theorem ceilQuotient_pos (hn : 0 < n) (hd : 0 < d) : 0 < ceilQuotient n d := by
  by_contra h
  have := (ceilQuotient_le_iff (k := 0) hn.le hd).mp (by omega)
  omega

theorem ceilQuotient_mono {m : Int} (hn : 0 ≤ n) (hd : 0 < d) (h : n ≤ m) :
    ceilQuotient n d ≤ ceilQuotient m d :=
  (ceilQuotient_le_iff hn hd).mpr (h.trans (le_ceilQuotient_mul (hn.trans h) hd))

theorem tdiv_mono {m : Int} (hn : 0 ≤ n) (hd : 0 < d) (h : n ≤ m) :
    n.tdiv d ≤ m.tdiv d :=
  (tdiv_le_iff (hn.trans h) hd).mpr ((tdiv_mul_le_self hn hd).trans h)

theorem ceilQuotient_eq_ceil (hn : 0 ≤ n) (hd : 0 < d) : ceilQuotient n d = ⌈(n : ℚ) / d⌉ := by
  refine eq_of_forall_ge_iff fun k => ?_
  rw [ceilQuotient_le_iff hn hd, Int.ceil_le, div_le_iff₀ (Int.cast_pos.mpr hd)]
  exact_mod_cast Iff.rfl

theorem tdiv_eq_floor (hn : 0 ≤ n) (hd : 0 < d) : n.tdiv d = ⌊(n : ℚ) / d⌋ := by
  refine eq_of_forall_le_iff fun k => ?_
  rw [tdiv_le_iff hn hd, Int.le_floor, le_div_iff₀ (Int.cast_pos.mpr hd)]
  exact_mod_cast Iff.rfl

end Rounding

section Results
variable {ε : Type v} {α β : Type u}

/-- A sequenced computation succeeds exactly when both of its parts do. -/
theorem bind_eq_ok {x : Except ε α} {f : α → Except ε β} {b : β} :
    (x >>= f) = .ok b ↔ ∃ a, x = .ok a ∧ f a = .ok b := by
  cases x with
  | error e => simp [bind, Except.bind]
  | ok a => simp [bind, Except.bind]

/-- A guard in front of a computation: fail with `e` when the condition holds. -/
def rejectIf (condition : Prop) [Decidable condition] (e : ε) : Except ε Unit :=
  if condition then .error e else .ok ()

@[simp] theorem rejectIf_eq_ok {condition : Prop} [Decidable condition] {e : ε} {u : Unit} :
    rejectIf condition e = .ok u ↔ ¬ condition := by
  by_cases h : condition <;> simp [rejectIf, h]

theorem rejectIf_of_not {condition : Prop} [Decidable condition] (e : ε)
    (h : ¬ condition) : rejectIf condition e = .ok () := rejectIf_eq_ok.mpr h

/-- A failure comes from one of the two parts. -/
theorem bind_ne_error {x : Except ε α} {f : α → Except ε β} {e : ε} (hx : x ≠ .error e)
    (hf : ∀ a, x = .ok a → f a ≠ .error e) : (x >>= f) ≠ .error e := by
  cases x with
  | error other =>
      intro h
      cases h
      exact hx rfl
  | ok a => exact hf a rfl

theorem rejectIf_ne_error {condition : Prop} [Decidable condition] {e other : ε} (h : e ≠ other) :
    rejectIf condition e ≠ .error other := by
  by_cases hc : condition <;> simp [rejectIf, hc, h]

theorem mapError_eq_ok {ε' : Type v} {f : ε → ε'} {x : Except ε α} {a : α} :
    x.mapError f = .ok a ↔ x = .ok a := by
  cases x <;> simp [Except.mapError]

theorem forM_eq_ok {l : List β} {f : β → Except ε PUnit.{u + 1}} {done : PUnit.{u + 1}} :
    l.forM f = .ok done ↔ ∀ b ∈ l, f b = .ok done := by
  induction l with
  | nil => simp [List.forM, pure, Except.pure]
  | cons b rest ih =>
      rw [List.forall_mem_cons, ← ih]
      change (f b >>= fun _ => rest.forM f) = _ ↔ _
      rw [bind_eq_ok]
      constructor
      · rintro ⟨_, hhead, hrest⟩
        exact ⟨hhead, hrest⟩
      · rintro ⟨hhead, hrest⟩
        exact ⟨done, hhead, hrest⟩

/-- A step over all elements succeeds exactly when it does for each of them. -/
theorem mapM_eq_ok {f : β → Except ε α} {l : List β} {results : List α} :
    l.mapM f = .ok results ↔ List.Forall₂ (fun b a => f b = .ok a) l results := by
  induction l generalizing results with
  | nil => simp [pure, Except.pure, eq_comm]
  | cons b rest ih =>
      simp only [List.mapM_cons, bind_eq_ok, List.forall₂_cons_left_iff, ih, pure, Except.pure,
        Except.ok.injEq]
      constructor
      · rintro ⟨a, hhead, others, hrest, rfl⟩
        exact ⟨a, others, hhead, hrest, rfl⟩
      · rintro ⟨a, others, hhead, hrest, rfl⟩
        exact ⟨a, hhead, others, hrest, rfl⟩

/-- What every step keeps holds at the end of a fold that succeeds. -/
theorem foldlM_preserves {f : β → α → Except ε β} {P : β → Prop} {l : List α} {b final : β}
    (hfinal : l.foldlM f b = .ok final) (hstart : P b)
    (hstep : ∀ a ∈ l, ∀ b next, f b a = .ok next → P b → P next) : P final := by
  induction l generalizing b with
  | nil =>
      cases hfinal
      exact hstart
  | cons a rest ih =>
      rw [List.foldlM_cons, bind_eq_ok] at hfinal
      obtain ⟨next, hnext, hrest⟩ := hfinal
      obtain ⟨hhead, htail⟩ := List.forall_mem_cons.mp hstep
      exact ih hrest (hhead b next hnext hstart) htail

theorem foldlM_ne_error {f : β → α → Except ε β} {e : ε} (h : ∀ b a, f b a ≠ .error e)
    (l : List α) (b : β) : l.foldlM f b ≠ .error e := by
  induction l generalizing b with
  | nil => simp [pure, Except.pure]
  | cons a rest ih =>
      rw [List.foldlM_cons]
      exact bind_ne_error (h b a) fun b' _ => ih b'

end Results

end CheckedArithmetic
