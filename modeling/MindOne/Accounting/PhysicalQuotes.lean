import MindOne.Accounting.Billing

/-!
# Quotes over the unbounded integers

What a quote means is a handful of formulas over the integers with exact ceilings. The
profile is checked once, at its largest token count; every amount grows with the token
count, so no smaller quote leaves the words that the largest one fits.
-/

namespace MindOne.Accounting

open CheckedArithmetic

namespace ServerReferenceBillingProfile
variable (profile : ServerReferenceBillingProfile) (tokens : Int)

def maximumTokens : Int := profile.maximumInputTokens + profile.maximumOutputTokens

def exactGpuTime : Int :=
  profile.fixedGpuTimeUs + ⌈((tokens * profile.gpuTimeUsPer1kTokens : Int) : ℚ) / 1000⌉

def exactVramIntegral : Int := profile.exactGpuTime tokens * profile.referenceVramMib

def exactTokenCost : Int := ⌈((tokens * profile.tokenRateMicroPer1k : Int) : ℚ) / 1000⌉

def exactGpuCost : Int :=
  ⌈((profile.exactGpuTime tokens * profile.gpuRateMicroPerSecond : Int) : ℚ) / 1000000⌉

def exactVramCost : Int :=
  ⌈((profile.exactVramIntegral tokens * profile.vramRateMicroPerGibSecond : Int) : ℚ) /
    (1024 * 1000000)⌉

def exactBaseCost : Int :=
  profile.exactTokenCost tokens + profile.exactGpuCost tokens + profile.exactVramCost tokens

/-- What the consumer pays at the `High` multiplier. -/
def exactDeduction : Int := ⌈((profile.exactBaseCost tokens * 1500 : Int) : ℚ) / 1000⌉

/-- The contribution points of an `Enhanced` node for it. -/
def exactPoints : Int := ⌊((profile.exactDeduction tokens * 1200 * 1100 : Int) : ℚ) / 1000000⌋

/-- The sign conditions. -/
structure Signed : Prop where
  maximumInputTokens : 0 ≤ profile.maximumInputTokens
  maximumOutputTokens : 0 < profile.maximumOutputTokens
  fixedGpuTimeUs : 0 ≤ profile.fixedGpuTimeUs
  gpuTimeUsPer1kTokens : 0 < profile.gpuTimeUsPer1kTokens
  referenceVramMib : 0 < profile.referenceVramMib
  tokenRateMicroPer1k : 0 < profile.tokenRateMicroPer1k
  gpuRateMicroPerSecond : 0 < profile.gpuRateMicroPerSecond
  vramRateMicroPerGibSecond : 0 < profile.vramRateMicroPerGibSecond

/-- All amounts for a token count are words of 64 bits. -/
structure FitsWords : Prop where
  billableTokens : Fits 64 tokens
  gpuTime : Fits 64 (profile.exactGpuTime tokens)
  vramIntegral : Fits 64 (profile.exactVramIntegral tokens)
  tokenCost : Fits 64 (profile.exactTokenCost tokens)
  gpuCost : Fits 64 (profile.exactGpuCost tokens)
  vramCost : Fits 64 (profile.exactVramCost tokens)
  baseCost : Fits 64 (profile.exactBaseCost tokens)
  deduction : Fits 64 (profile.exactDeduction tokens)
  points : Fits 64 (profile.exactPoints tokens)

end ServerReferenceBillingProfile

/-- The seven fields of a quote are the exact amounts. -/
structure PhysicalBillingQuote.Exact (quote : PhysicalBillingQuote)
    (profile : ServerReferenceBillingProfile) (tokens : Int) : Prop where
  billableTokens : quote.billableTokens = tokens
  referenceGpuTimeUs : quote.referenceGpuTimeUs = profile.exactGpuTime tokens
  referenceVramMibMicroseconds :
    quote.referenceVramMibMicroseconds = profile.exactVramIntegral tokens
  tokenCost : quote.tokenCost.asI64 = profile.exactTokenCost tokens
  gpuCost : quote.gpuCost.asI64 = profile.exactGpuCost tokens
  vramCost : quote.vramCost.asI64 = profile.exactVramCost tokens
  baseCost : quote.baseCost.asI64 = profile.exactBaseCost tokens

section Exactness
variable {profile : ServerReferenceBillingProfile} {tokens more : Int}

namespace ServerReferenceBillingProfile

/-- The formulas as the program computes them. -/
theorem Signed.exact_eq (h : profile.Signed) (htokens : 0 ≤ tokens) :
    profile.exactGpuTime tokens = profile.fixedGpuTimeUs +
      ceilQuotient (tokens * profile.gpuTimeUsPer1kTokens) tokensPerRateUnit ∧
    profile.exactTokenCost tokens =
      ceilQuotient (tokens * profile.tokenRateMicroPer1k) tokensPerRateUnit ∧
    profile.exactGpuCost tokens =
      ceilQuotient (profile.exactGpuTime tokens * profile.gpuRateMicroPerSecond)
        microsecondsPerSecond ∧
    profile.exactVramCost tokens =
      ceilQuotient (profile.exactVramIntegral tokens * profile.vramRateMicroPerGibSecond)
        mibMicrosecondsPerGibSecond ∧
    0 ≤ profile.exactGpuTime tokens := by
  have htime := mul_nonneg htokens h.gpuTimeUsPer1kTokens.le
  have hgpuTime : profile.exactGpuTime tokens = profile.fixedGpuTimeUs +
      ceilQuotient (tokens * profile.gpuTimeUsPer1kTokens) tokensPerRateUnit := by
    rw [exactGpuTime, ceilQuotient_eq_ceil htime (by decide)]
    rfl
  have hnonneg : 0 ≤ profile.exactGpuTime tokens := by
    have := ceilQuotient_nonneg htime (d := tokensPerRateUnit) (by decide)
    have := h.fixedGpuTimeUs
    omega
  have hintegral : 0 ≤ profile.exactVramIntegral tokens :=
    mul_nonneg hnonneg h.referenceVramMib.le
  refine ⟨hgpuTime, ?_, ?_, ?_, hnonneg⟩
  · rw [exactTokenCost, ceilQuotient_eq_ceil (mul_nonneg htokens h.tokenRateMicroPer1k.le)
      (by decide)]
    rfl
  · rw [exactGpuCost, ceilQuotient_eq_ceil (mul_nonneg hnonneg h.gpuRateMicroPerSecond.le)
      (by decide)]
    rfl
  · rw [exactVramCost, ceilQuotient_eq_ceil
      (mul_nonneg hintegral h.vramRateMicroPerGibSecond.le) (by decide)]
    norm_num [mibMicrosecondsPerGibSecond, mibPerGib, microsecondsPerSecond]

theorem Signed.exact_pos (h : profile.Signed) (htokens : 0 < tokens) :
    1 ≤ profile.exactTokenCost tokens ∧ 1 ≤ profile.exactGpuCost tokens ∧
      1 ≤ profile.exactVramCost tokens := by
  obtain ⟨hgpuTime, htoken, hgpu, hvram, -⟩ := h.exact_eq htokens.le
  have htime := ceilQuotient_pos (mul_pos htokens h.gpuTimeUsPer1kTokens) (d := tokensPerRateUnit)
    (by decide)
  have hpos : 0 < profile.exactGpuTime tokens := by
    have := h.fixedGpuTimeUs
    omega
  have hintegral : 0 < profile.exactVramIntegral tokens := mul_pos hpos h.referenceVramMib
  rw [htoken, hgpu, hvram]
  exact ⟨ceilQuotient_pos (mul_pos htokens h.tokenRateMicroPer1k) (by decide),
    ceilQuotient_pos (mul_pos hpos h.gpuRateMicroPerSecond) (by decide),
    ceilQuotient_pos (mul_pos hintegral h.vramRateMicroPerGibSecond) (by decide)⟩

theorem Signed.exactBaseCost_nonneg (h : profile.Signed) (htokens : 0 ≤ tokens) :
    0 ≤ profile.exactTokenCost tokens ∧ 0 ≤ profile.exactGpuCost tokens ∧
      0 ≤ profile.exactVramCost tokens := by
  obtain ⟨-, htoken, hgpu, hvram, hnonneg⟩ := h.exact_eq htokens
  have hintegral : 0 ≤ profile.exactVramIntegral tokens :=
    mul_nonneg hnonneg h.referenceVramMib.le
  rw [htoken, hgpu, hvram]
  exact ⟨ceilQuotient_nonneg (mul_nonneg htokens h.tokenRateMicroPer1k.le) (by decide),
    ceilQuotient_nonneg (mul_nonneg hnonneg h.gpuRateMicroPerSecond.le) (by decide),
    ceilQuotient_nonneg (mul_nonneg hintegral h.vramRateMicroPerGibSecond.le) (by decide)⟩

theorem ceil_div_mono {a b : Int} {d : ℚ} (hd : 0 < d) (h : a ≤ b) :
    ⌈(a : ℚ) / d⌉ ≤ ⌈(b : ℚ) / d⌉ :=
  Int.ceil_mono (div_le_div_of_nonneg_right (Int.cast_le.mpr h) hd.le)

/-- More tokens never cost less. -/
theorem Signed.exactBaseCost_mono (h : profile.Signed) (hle : tokens ≤ more) :
    profile.exactBaseCost tokens ≤ profile.exactBaseCost more := by
  have htime : profile.exactGpuTime tokens ≤ profile.exactGpuTime more :=
    add_le_add_right (ceil_div_mono (by norm_num)
      (mul_le_mul_of_nonneg_right hle h.gpuTimeUsPer1kTokens.le)) _
  have hintegral : profile.exactVramIntegral tokens ≤ profile.exactVramIntegral more :=
    mul_le_mul_of_nonneg_right htime h.referenceVramMib.le
  refine add_le_add (add_le_add ?_ ?_) ?_
  · exact ceil_div_mono (by norm_num) (mul_le_mul_of_nonneg_right hle h.tokenRateMicroPer1k.le)
  · exact ceil_div_mono (by norm_num)
      (mul_le_mul_of_nonneg_right htime h.gpuRateMicroPerSecond.le)
  · exact ceil_div_mono (by norm_num)
      (mul_le_mul_of_nonneg_right hintegral h.vramRateMicroPerGibSecond.le)

theorem Signed.exactDeduction_mono (h : profile.Signed) (hle : tokens ≤ more) :
    profile.exactDeduction tokens ≤ profile.exactDeduction more :=
  ceil_div_mono (by norm_num)
    (mul_le_mul_of_nonneg_right (h.exactBaseCost_mono hle) (by norm_num))

theorem Signed.exactDeduction_eq (h : profile.Signed) (htokens : 0 ≤ tokens) :
    profile.exactDeduction tokens = ceilQuotient (profile.exactBaseCost tokens * 1500) 1000 := by
  obtain ⟨htoken, hgpu, hvram⟩ := h.exactBaseCost_nonneg htokens
  have hbase : 0 ≤ profile.exactBaseCost tokens := add_nonneg (add_nonneg htoken hgpu) hvram
  rw [exactDeduction, ceilQuotient_eq_ceil (mul_nonneg hbase (by norm_num)) (by norm_num)]
  rfl

theorem Signed.exactPoints_eq (h : profile.Signed) (htokens : 0 ≤ tokens) :
    profile.exactPoints tokens =
      (profile.exactDeduction tokens * 1200 * 1100).tdiv 1000000 := by
  obtain ⟨htoken, hgpu, hvram⟩ := h.exactBaseCost_nonneg htokens
  have hbase : 0 ≤ profile.exactBaseCost tokens := add_nonneg (add_nonneg htoken hgpu) hvram
  have hdeduction : 0 ≤ profile.exactDeduction tokens := by
    rw [h.exactDeduction_eq htokens]
    exact ceilQuotient_nonneg (mul_nonneg hbase (by norm_num)) (by norm_num)
  rw [exactPoints, tdiv_eq_floor (by positivity) (by norm_num)]
  rfl

theorem Signed.maximumTokens_pos (h : profile.Signed) : 0 < profile.maximumTokens :=
  add_pos_of_nonneg_of_pos h.maximumInputTokens h.maximumOutputTokens

/-- A product of words that rounds up to a word passes every check on the way. -/
theorem ceilMulDiv_of_fits {left right denominator : Int} (operation : String)
    (hleft : 0 ≤ left) (hright : 0 ≤ right) (hpos : 0 < denominator)
    (hle : denominator ≤ mibMicrosecondsPerGibSecond)
    (hfits : Fits 64 (ceilQuotient (left * right) denominator)) :
    ceilMulDiv left right denominator operation =
      .ok (ceilQuotient (left * right) denominator) := by
  have hprod := mul_nonneg hleft hright
  have hcover := le_ceilQuotient_mul hprod hpos
  rw [fits_64] at hfits
  have hscale : ceilQuotient (left * right) denominator * denominator ≤
      9223372036854775808 * 1024000000 :=
    mul_le_mul hfits.2.le hle hpos.le (by norm_num)
  have hsmall : denominator ≤ 1024000000 := hle
  refine ceilMulDiv_eq_ok.mpr ⟨hleft, hright, ?_, ?_, fits_64.mpr hfits, rfl⟩
  · rw [fits_128]
    omega
  · rw [fits_128]
    omega

theorem fits_128_of_64 {n : Int} (h : Fits 64 n) : Fits 128 n := by
  rw [fits_64] at h
  rw [fits_128]
  omega

/-- A profile is accepted exactly when its signs are right and the amounts of its largest
token count are words. -/
theorem validate_eq_ok_iff :
    profile.validate = .ok () ↔ profile.Signed ∧ profile.FitsWords profile.maximumTokens := by
  constructor
  · intro hvalid
    simp only [validate, bind_eq_ok, requireNonnegative_eq_ok, requirePositive_eq_ok,
      exists_const] at hvalid
    obtain ⟨hinput, houtput, hfixed, htime, hmib, htokenRate, hgpuRate, hvramRate, tokens, htokens,
      variableTime, hvariable, time, htimeSum, integral, hintegral, tokenTop, htokenTop, tokenCost,
      htokenCost, gpuTop, hgpuTop, gpuCost, hgpuCost, vramTop, hvramTop, vramCost, hvramCost,
      part, hpart, base, hbase, top, htop, -⟩ := hvalid
    have hsigned : profile.Signed :=
      ⟨hinput, houtput, hfixed, htime, hmib, htokenRate, hgpuRate, hvramRate⟩
    have hpos := hsigned.maximumTokens_pos.le
    obtain ⟨-, narrow, rfl⟩ := checkedAddI64_eq_ok.mp htokens
    obtain ⟨-, -, -, -, -, rfl⟩ := ceilMulDiv_eq_ok.mp hvariable
    obtain ⟨hexactTime, hexactToken, hexactGpu, hexactVram, -⟩ := hsigned.exact_eq hpos
    obtain ⟨-, timeNarrow, htimeEq⟩ := checkedAddI64_eq_ok.mp htimeSum
    obtain rfl : profile.exactGpuTime profile.maximumTokens = time := hexactTime.trans htimeEq
    obtain ⟨-, integralNarrow, hintegralEq⟩ := checkedMulI64_eq_ok.mp hintegral
    obtain rfl : profile.exactVramIntegral profile.maximumTokens = integral := hintegralEq
    obtain ⟨-, -, -, -, tokenNarrow, rfl⟩ := ceilMulDiv_eq_ok.mp htokenTop
    obtain ⟨-, -, -, -, gpuNarrow, rfl⟩ := ceilMulDiv_eq_ok.mp hgpuTop
    obtain ⟨-, -, -, -, vramNarrow, rfl⟩ := ceilMulDiv_eq_ok.mp hvramTop
    rw [MicroQuota.new_eq_ok] at htokenCost hgpuCost hvramCost
    obtain ⟨-, hpart⟩ := MicroQuota.checkedAdd_eq_ok.mp hpart
    obtain ⟨baseNarrow, hbaseEq⟩ := MicroQuota.checkedAdd_eq_ok.mp hbase
    have hexactBase : profile.exactBaseCost profile.maximumTokens = base.asI64 := by
      rw [exactBaseCost, hexactToken, hexactGpu, hexactVram, ← hbaseEq, ← hpart, ← htokenCost,
        ← hgpuCost, ← hvramCost]
      rfl
    obtain ⟨hdeduction, -, hpoints, -, deductionNarrow, pointsNarrow, -⟩ :=
      Settlement.calculate_spec htop
    have hexactDeduction : profile.exactDeduction profile.maximumTokens =
        top.userDeduction.asI64 := by
      rw [hsigned.exactDeduction_eq hpos, hexactBase, hdeduction]
      rfl
    refine ⟨hsigned, narrow, hexactTime ▸ htimeEq ▸ timeNarrow, integralNarrow,
      hexactToken ▸ tokenNarrow, hexactGpu ▸ gpuNarrow, hexactVram ▸ vramNarrow,
      hexactBase ▸ hbaseEq ▸ baseNarrow, hexactDeduction ▸ deductionNarrow, ?_⟩
    rw [hsigned.exactPoints_eq hpos, hexactDeduction]
    exact hpoints ▸ pointsNarrow
  · rintro ⟨h, hfits⟩
    have hpos := h.maximumTokens_pos.le
    obtain ⟨hexactTime, hexactToken, hexactGpu, hexactVram, htime⟩ := h.exact_eq hpos
    obtain ⟨htoken, hgpu, hvram⟩ := h.exactBaseCost_nonneg hpos
    have hintegral : 0 ≤ profile.exactVramIntegral profile.maximumTokens :=
      mul_nonneg htime h.referenceVramMib.le
    have hvariable : Fits 64 (ceilQuotient (profile.maximumTokens * profile.gpuTimeUsPer1kTokens)
        tokensPerRateUnit) := by
      have hnonneg := ceilQuotient_nonneg (mul_nonneg hpos h.gpuTimeUsPer1kTokens.le)
        (d := tokensPerRateUnit) (by decide)
      have hfixed := h.fixedGpuTimeUs
      exact fits_of_between fits_zero hfits.gpuTime hnonneg (by omega)
    have hpart : Fits 64 (profile.exactTokenCost profile.maximumTokens +
        profile.exactGpuCost profile.maximumTokens) :=
      fits_of_between fits_zero hfits.baseCost (add_nonneg htoken hgpu)
        (le_add_of_nonneg_right hvram)
    have hbase : 0 ≤ profile.exactBaseCost profile.maximumTokens :=
      add_nonneg (add_nonneg htoken hgpu) hvram
    obtain ⟨top, htop⟩ : ∃ top, Settlement.calculate ⟨_, hbase⟩ .high .enhanced = .ok top :=
      Settlement.calculate_ok hfits.baseCost (h.exactDeduction_eq hpos ▸ hfits.deduction)
        (h.exactDeduction_eq hpos ▸ h.exactPoints_eq hpos ▸ hfits.points)
    simp only [validate, bind_eq_ok, requireNonnegative_eq_ok, requirePositive_eq_ok,
      exists_const]
    refine ⟨h.maximumInputTokens, h.maximumOutputTokens, h.fixedGpuTimeUs,
      h.gpuTimeUsPer1kTokens, h.referenceVramMib, h.tokenRateMicroPer1k, h.gpuRateMicroPerSecond,
      h.vramRateMicroPerGibSecond, profile.maximumTokens,
      checkedAddI64_eq_ok.mpr ⟨fits_128_of_64 hfits.billableTokens, hfits.billableTokens, rfl⟩,
      _, ceilMulDiv_of_fits _ hpos h.gpuTimeUsPer1kTokens.le (by decide) (by decide) hvariable,
      profile.exactGpuTime profile.maximumTokens,
      checkedAddI64_eq_ok.mpr ⟨fits_128_of_64 (hexactTime ▸ hfits.gpuTime),
        hexactTime ▸ hfits.gpuTime, hexactTime.symm⟩,
      profile.exactVramIntegral profile.maximumTokens,
      checkedMulI64_eq_ok.mpr ⟨fits_128_of_64 hfits.vramIntegral, hfits.vramIntegral, rfl⟩,
      _, ceilMulDiv_of_fits _ hpos h.tokenRateMicroPer1k.le (by decide) (by decide)
        (hexactToken ▸ hfits.tokenCost),
      ⟨_, htoken⟩, MicroQuota.new_eq_ok.mpr hexactToken.symm,
      _, ceilMulDiv_of_fits _ htime h.gpuRateMicroPerSecond.le (by decide) (by decide)
        (hexactGpu ▸ hfits.gpuCost),
      ⟨_, hgpu⟩, MicroQuota.new_eq_ok.mpr hexactGpu.symm,
      _, ceilMulDiv_of_fits _ hintegral h.vramRateMicroPerGibSecond.le (by decide) le_rfl
        (hexactVram ▸ hfits.vramCost),
      ⟨_, hvram⟩, MicroQuota.new_eq_ok.mpr hexactVram.symm,
      ⟨_, add_nonneg htoken hgpu⟩, MicroQuota.checkedAdd_eq_ok.mpr ⟨hpart, rfl⟩,
      ⟨_, hbase⟩, MicroQuota.checkedAdd_eq_ok.mpr ⟨hfits.baseCost, rfl⟩, top, htop, rfl⟩

end ServerReferenceBillingProfile

theorem quoteServerReferenceUpperBound_spec {quote : PhysicalBillingQuote}
    (h : quoteServerReferenceUpperBound profile tokens = .ok quote) :
    profile.validate = .ok () ∧ 1 ≤ tokens ∧ tokens ≤ profile.maximumTokens ∧
      quote.Exact profile tokens := by
  simp only [quoteServerReferenceUpperBound, bind_eq_ok, requirePositive_eq_ok, rejectIf_eq_ok,
    exists_const, checkedAddI64_eq_ok, checkedMulI64_eq_ok, ceilMulDiv_eq_ok,
    MicroQuota.new_eq_ok, MicroQuota.checkedAdd_eq_ok] at h
  obtain ⟨⟨⟩, hvalid, htokens, _, ⟨-, -, rfl⟩, hle, _, ⟨-, -, -, -, -, rfl⟩, _, ⟨-, -, htime⟩,
    _, ⟨-, -, hintegral⟩, _, ⟨-, -, -, -, -, rfl⟩, token, htoken, _, ⟨-, -, -, -, -, rfl⟩, gpu,
    hgpu, _, ⟨-, -, -, -, -, rfl⟩, vram, hvram, part, ⟨-, hpart⟩, base, ⟨-, hbase⟩, hquote⟩ := h
  cases hquote
  obtain ⟨hexactTime, hexactToken, hexactGpu, hexactVram, -⟩ :=
    (ServerReferenceBillingProfile.validate_eq_ok_iff.mp hvalid).1.exact_eq htokens.le
  obtain rfl := hexactTime.trans htime
  obtain rfl : profile.exactVramIntegral tokens = _ := hintegral
  refine ⟨hvalid, htokens, not_lt.mp hle, rfl, rfl, rfl, htoken.symm.trans hexactToken.symm,
    hgpu.symm.trans hexactGpu.symm, hvram.symm.trans hexactVram.symm, ?_⟩
  rw [ServerReferenceBillingProfile.exactBaseCost, hexactToken, hexactGpu, hexactVram, htoken,
    hgpu, hvram, hpart]
  exact hbase.symm

/-- A token count within the bounds is an authorization of input and output within theirs. -/
theorem quoteServerReferenceUpperBound_ok (hvalid : profile.validate = .ok ())
    (htokens : 1 ≤ tokens) (hle : tokens ≤ profile.maximumTokens) :
    ∃ quote, quoteServerReferenceUpperBound profile tokens = .ok quote := by
  obtain ⟨hsigned, -⟩ := ServerReferenceBillingProfile.validate_eq_ok_iff.mp hvalid
  have hinput := hsigned.maximumInputTokens
  have houtput := hsigned.maximumOutputTokens
  obtain ⟨input, output, rfl, hbounds⟩ : ∃ input output, tokens = input + output ∧ 0 ≤ input ∧
      input ≤ profile.maximumInputTokens ∧ 0 < output ∧ output ≤ profile.maximumOutputTokens := by
    rw [ServerReferenceBillingProfile.maximumTokens] at hle
    by_cases hfew : tokens ≤ profile.maximumInputTokens
    · exact ⟨tokens - 1, 1, by omega, by omega⟩
    · exact ⟨profile.maximumInputTokens, tokens - profile.maximumInputTokens, by omega, by omega⟩
  obtain ⟨quote, hquote⟩ := maximumReservationQuote_ok hvalid hbounds.1 hbounds.2.1 hbounds.2.2.1
    hbounds.2.2.2
  simp only [maximumReservationQuote, bind_eq_ok, checkedAddI64_eq_ok] at hquote
  obtain ⟨_, -, _, -, _, -, _, ⟨-, -, rfl⟩, hquote⟩ := hquote
  exact ⟨quote, hquote⟩

theorem maximumReservationMicro_spec {input output : Int} {reservation : MicroQuota}
    (h : maximumReservationMicro profile input output = .ok reservation) :
    profile.Signed ∧ 0 < input + output ∧
      reservation.asI64 = profile.exactDeduction (input + output) := by
  obtain ⟨quote, settlement, hquote, hsettlement, rfl⟩ := maximumReservationMicro_eq_ok.mp h
  simp only [maximumReservationQuote, bind_eq_ok, checkedAddI64_eq_ok] at hquote
  obtain ⟨_, -, _, -, _, -, _, ⟨-, -, rfl⟩, hquote⟩ := hquote
  obtain ⟨hvalid, htokens, -, hexact⟩ := quoteServerReferenceUpperBound_spec hquote
  have hsigned := (ServerReferenceBillingProfile.validate_eq_ok_iff.mp hvalid).1
  refine ⟨hsigned, htokens, ?_⟩
  rw [(Settlement.calculate_spec hsettlement).1, hexact.baseCost,
    hsigned.exactDeduction_eq (by omega)]
  rfl

/-- A quote is exact, total on what the profile allows and monotone; a profile is refused
only for a sign or because its largest quote leaves the words. -/
theorem quoteServerReferenceUpperBound_exact (profile : ServerReferenceBillingProfile) :
    (∀ tokens, (profile.validate = .ok () ∧ 1 ≤ tokens ∧ tokens ≤ profile.maximumTokens →
        ∃ quote, quoteServerReferenceUpperBound profile tokens = .ok quote ∧
          quote.Exact profile tokens ∧ 1 ≤ quote.tokenCost.asI64 ∧ 1 ≤ quote.gpuCost.asI64 ∧
          1 ≤ quote.vramCost.asI64) ∧
      (¬(profile.validate = .ok () ∧ 1 ≤ tokens ∧ tokens ≤ profile.maximumTokens) →
        ∃ error, quoteServerReferenceUpperBound profile tokens = .error error)) ∧
    (∀ tokens more quote quote', quoteServerReferenceUpperBound profile tokens = .ok quote →
      quoteServerReferenceUpperBound profile more = .ok quote' → tokens ≤ more →
        quote.baseCost.asI64 ≤ quote'.baseCost.asI64) ∧
    (∀ input output input' output' reservation reservation',
      maximumReservationMicro profile input output = .ok reservation →
      maximumReservationMicro profile input' output' = .ok reservation' →
      input ≤ input' → output ≤ output' → reservation.asI64 ≤ reservation'.asI64) ∧
    ((∃ error, profile.validate = .error error) →
      ¬profile.Signed ∨ ¬profile.FitsWords profile.maximumTokens) := by
  refine ⟨fun tokens => ⟨?_, ?_⟩, ?_, ?_, ?_⟩
  · rintro ⟨hvalid, htokens, hle⟩
    obtain ⟨quote, hquote⟩ := quoteServerReferenceUpperBound_ok hvalid htokens hle
    obtain ⟨-, -, -, hexact⟩ := quoteServerReferenceUpperBound_spec hquote
    obtain ⟨htoken, hgpu, hvram⟩ :=
      (ServerReferenceBillingProfile.validate_eq_ok_iff.mp hvalid).1.exact_pos htokens
    exact ⟨quote, hquote, hexact, hexact.tokenCost ▸ htoken, hexact.gpuCost ▸ hgpu,
      hexact.vramCost ▸ hvram⟩
  · intro hnot
    cases hquote : quoteServerReferenceUpperBound profile tokens with
    | error error => exact ⟨error, rfl⟩
    | ok quote =>
        obtain ⟨hvalid, htokens, hle, -⟩ := quoteServerReferenceUpperBound_spec hquote
        exact absurd ⟨hvalid, htokens, hle⟩ hnot
  · intro tokens more quote quote' hquote hquote' hle
    obtain ⟨hvalid, -, -, hexact⟩ := quoteServerReferenceUpperBound_spec hquote
    obtain ⟨-, -, -, hexact'⟩ := quoteServerReferenceUpperBound_spec hquote'
    rw [hexact.baseCost, hexact'.baseCost]
    exact (ServerReferenceBillingProfile.validate_eq_ok_iff.mp hvalid).1.exactBaseCost_mono hle
  · intro input output input' output' reservation reservation' h h' hinput houtput
    obtain ⟨hsigned, -, hexact⟩ := maximumReservationMicro_spec h
    obtain ⟨-, -, hexact'⟩ := maximumReservationMicro_spec h'
    rw [hexact, hexact']
    exact hsigned.exactDeduction_mono (add_le_add hinput houtput)
  · rintro ⟨error, herror⟩
    by_contra hnone
    rw [not_or, not_not, not_not] at hnone
    rw [ServerReferenceBillingProfile.validate_eq_ok_iff.mpr hnone] at herror
    cases herror

/-- The profile of the source's own test. -/
def sampleBillingProfile : ServerReferenceBillingProfile :=
  ⟨4096, 1024, 100000, 2000000, 8192, 1000000, 2000, 3000⟩

theorem quoteServerReferenceUpperBound_exact_sample :
    (∃ quote, quoteServerReferenceUpperBound sampleBillingProfile 1500 = .ok quote ∧
      quote.Exact sampleBillingProfile 1500) ∧
    ∃ error, quoteServerReferenceUpperBound sampleBillingProfile 5121 = .error error := by
  have hvalid : sampleBillingProfile.validate = .ok () := by decide +kernel
  obtain ⟨hquotes, -⟩ := quoteServerReferenceUpperBound_exact sampleBillingProfile
  obtain ⟨quote, hquote, hexact, -⟩ := (hquotes 1500).1 ⟨hvalid, by decide, by decide⟩
  exact ⟨⟨quote, hquote, hexact⟩, (hquotes 5121).2 fun h => absurd h.2.2 (by decide)⟩

end Exactness

end MindOne.Accounting
