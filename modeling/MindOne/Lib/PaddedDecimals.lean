import Mathlib.Algebra.Group.Nat.Defs
import Mathlib.Data.List.Induction

/-!
# Decimal numbers of a fixed width

A number written with leading zeros up to a width. Among the texts of decimal
digits of one width and the numbers below its power of ten, writing and reading
are inverse to each other.
-/

namespace PaddedDecimals

/-- The decimal digits of a number, with zeros in front up to a width. -/
def zeroPadded (width n : Nat) : List Char :=
  List.replicate (width - (Nat.toDigits 10 n).length) '0' ++ Nat.toDigits 10 n

theorem isDigit_of_mem_zeroPadded {width n : Nat} {c : Char} (h : c ∈ zeroPadded width n) :
    c.isDigit = true := by
  rcases List.mem_append.mp h with hzero | hdigit
  · rw [List.eq_of_mem_replicate hzero]
    rfl
  · exact Nat.isDigit_of_mem_toDigits (by omega) (by omega) hdigit

theorem length_zeroPadded {width n : Nat} (hwidth : 0 < width) (h : n < 10 ^ width) :
    (zeroPadded width n).length = width := by
  have hlength := (Nat.length_toDigits_le_iff (b := 10) (by omega) hwidth).mpr h
  rw [zeroPadded, List.length_append, List.length_replicate]
  omega

/-- Reading gives back the number that was written. -/
theorem ofDigitChars_zeroPadded (width n : Nat) :
    Nat.ofDigitChars 10 (zeroPadded width n) 0 = n := by
  rw [zeroPadded, Nat.ofDigitChars_append, Nat.ofDigitChars_replicate_zero, Nat.mul_zero,
    Nat.ofDigitChars_ten_toDigits]

theorem zeroPadded_injective {width m n : Nat} (h : zeroPadded width m = zeroPadded width n) :
    m = n := by
  rw [← ofDigitChars_zeroPadded width m, h, ofDigitChars_zeroPadded]

theorem digit_lt_ten {c : Char} (h : c.isDigit = true) : c.toNat - 48 < 10 := by
  obtain ⟨hlow, hhigh⟩ := Char.isDigit_iff_toNat.mp h
  exact Nat.sub_lt_left_of_lt_add hlow (Nat.lt_succ_of_le hhigh)

theorem digitChar_of_isDigit {c : Char} (h : c.isDigit = true) :
    (c.toNat - 48).digitChar = c := by
  apply Char.toNat_inj.mp
  rw [Nat.toNat_digitChar_of_lt_ten (digit_lt_ten h)]
  exact Nat.add_sub_cancel' (Char.isDigit_iff_toNat.mp h).1

/-- One more digit at the end. -/
theorem zeroPadded_concat {width n : Nat} {c : Char} (hwidth : 0 < width)
    (h : c.isDigit = true) :
    zeroPadded (width + 1) (10 * n + (c.toNat - 48)) = zeroPadded width n ++ [c] := by
  have hlast : Nat.toDigits 10 (c.toNat - 48) = [c] := by
    rw [Nat.toDigits_of_lt_base (digit_lt_ten h), digitChar_of_isDigit h]
  cases Nat.eq_zero_or_pos n with
  | inl hzero =>
      subst hzero
      obtain ⟨below, rfl⟩ : ∃ below, width = below + 1 := ⟨width - 1, by omega⟩
      simp only [zeroPadded, Nat.mul_zero, Nat.zero_add, hlast, Nat.toDigits_zero,
        List.length_singleton, Nat.add_sub_cancel, List.replicate_succ']
  | inr hpos =>
      have hdigits : Nat.toDigits 10 (10 * n + (c.toNat - 48)) = Nat.toDigits 10 n ++ [c] := by
        rw [← Nat.toDigits_append_toDigits (by omega) hpos (digit_lt_ten h), hlast]
      simp only [zeroPadded, hdigits, List.length_append, List.length_singleton,
        Nat.add_sub_add_right, List.append_assoc]

/-- Writing gives back the digits that were read. -/
theorem zeroPadded_ofDigitChars {raw : List Char} (hne : raw ≠ [])
    (h : ∀ c ∈ raw, c.isDigit = true) :
    zeroPadded raw.length (Nat.ofDigitChars 10 raw 0) = raw := by
  induction raw using List.reverseRecOn with
  | nil => exact absurd rfl hne
  | append_singleton front c ih =>
      have hc : c.isDigit = true := h c (List.mem_append_right _ List.mem_cons_self)
      cases front with
      | nil =>
          have hvalue : Nat.ofDigitChars 10 [c] 0 = c.toNat - 48 := by
            rw [Nat.ofDigitChars_cons, Nat.ofDigitChars_nil, Nat.mul_zero, Nat.zero_add]
            rfl
          rw [List.nil_append, hvalue, zeroPadded, Nat.toDigits_of_lt_base (digit_lt_ten hc),
            digitChar_of_isDigit hc]
          rfl
      | cons a rest =>
          have hfront := ih (List.cons_ne_nil _ _) fun x hx => h x (List.mem_append_left _ hx)
          have hvalue : Nat.ofDigitChars 10 (a :: rest ++ [c]) 0 =
              10 * Nat.ofDigitChars 10 (a :: rest) 0 + (c.toNat - 48) := by
            rw [Nat.ofDigitChars_append, Nat.ofDigitChars_cons, Nat.ofDigitChars_nil]
            rfl
          rw [List.length_append, List.length_singleton, hvalue,
            zeroPadded_concat (List.length_pos_of_mem List.mem_cons_self) hc, hfront]

end PaddedDecimals
