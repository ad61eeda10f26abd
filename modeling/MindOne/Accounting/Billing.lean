import MindOne.Accounting.Fixed

/-!
# Reference billing and reservations

A quote is computed from token bounds that the coordinator authorized and a
frozen reference profile, never from what a node reports. Its three components
are rounded up separately. The reservation is the quote at the highest
performance multiplier, and the main result is that it covers every settlement
of the same quote.
-/

namespace MindOne.Accounting

open CheckedArithmetic

def tokensPerRateUnit : Int := 1000

def microsecondsPerSecond : Int := 1000000

def mibPerGib : Int := 1024

def mibMicrosecondsPerGibSecond : Int := mibPerGib * microsecondsPerSecond

structure ServerReferenceBillingProfile where
  maximumInputTokens : Int
  maximumOutputTokens : Int
  fixedGpuTimeUs : Int
  gpuTimeUsPer1kTokens : Int
  referenceVramMib : Int
  tokenRateMicroPer1k : Int
  gpuRateMicroPerSecond : Int
  vramRateMicroPerGibSecond : Int

structure PhysicalBillingQuote where
  billableTokens : Int
  referenceGpuTimeUs : Int
  referenceVramMibMicroseconds : Int
  tokenCost : MicroQuota
  gpuCost : MicroQuota
  vramCost : MicroQuota
  baseCost : MicroQuota

def requireNonnegative (value : Int) (field : String) : Result Unit :=
  rejectIf (value < 0) (.negativeAmount field)

def requirePositive (value : Int) (field : String) : Result Unit := do
  requireNonnegative value field
  rejectIf (value = 0) (.invalidBilling (field ++ " 必须大于零"))

def checkedAddI64 (left right : Int) (operation : String) : Result Int := do
  let sum ← checkedI128 (left + right) operation
  i64TryFrom sum operation

def checkedMulI64 (left right : Int) (operation : String) : Result Int := do
  let product ← checkedI128 (left * right) operation
  i64TryFrom product operation

def ceilMulDiv (left right denominator : Int) (operation : String) : Result Int := do
  requireNonnegative left "billing_multiplicand"
  requireNonnegative right "billing_multiplier"
  let product ← checkedI128 (left * right) operation
  let adjusted ← checkedI128 (product + (denominator - 1)) operation
  i64TryFrom (adjusted.tdiv denominator) operation

/-- The checks of a profile end in a settlement of its largest possible quote. -/
def ServerReferenceBillingProfile.validate (self : ServerReferenceBillingProfile) :
    Result Unit := do
  requireNonnegative self.maximumInputTokens "maximum_input_tokens"
  requirePositive self.maximumOutputTokens "maximum_output_tokens"
  requireNonnegative self.fixedGpuTimeUs "fixed_gpu_time_us"
  requirePositive self.gpuTimeUsPer1kTokens "gpu_time_us_per_1k_tokens"
  requirePositive self.referenceVramMib "reference_vram_mib"
  requirePositive self.tokenRateMicroPer1k "token_rate_micro_per_1k"
  requirePositive self.gpuRateMicroPerSecond "gpu_rate_micro_per_second"
  requirePositive self.vramRateMicroPerGibSecond "vram_rate_micro_per_gib_second"
  let maximumBillableTokens ← checkedAddI64 self.maximumInputTokens
    self.maximumOutputTokens "profile token 上界"
  let maximumVariableGpuTimeUs ← ceilMulDiv maximumBillableTokens
    self.gpuTimeUsPer1kTokens tokensPerRateUnit "profile GPU 时间上界"
  let maximumGpuTimeUs ← checkedAddI64 self.fixedGpuTimeUs maximumVariableGpuTimeUs
    "profile GPU 时间上界求和"
  let maximumVramIntegral ← checkedMulI64 maximumGpuTimeUs self.referenceVramMib
    "profile 显存积分上界"
  let maximumTokenCost ← MicroQuota.new (← ceilMulDiv maximumBillableTokens
    self.tokenRateMicroPer1k tokensPerRateUnit "profile token 成本上界")
  let maximumGpuCost ← MicroQuota.new (← ceilMulDiv maximumGpuTimeUs
    self.gpuRateMicroPerSecond microsecondsPerSecond "profile GPU 成本上界")
  let maximumVramCost ← MicroQuota.new (← ceilMulDiv maximumVramIntegral
    self.vramRateMicroPerGibSecond mibMicrosecondsPerGibSecond
    "profile 显存成本上界")
  let maximumBaseCost ← (← maximumTokenCost.checkedAdd maximumGpuCost).checkedAdd
    maximumVramCost
  let _ ← Settlement.calculate maximumBaseCost .high .enhanced
  return ()

def quoteServerReferenceUpperBound (profile : ServerReferenceBillingProfile)
    (billableTokens : Int) : Result PhysicalBillingQuote := do
  profile.validate
  requirePositive billableTokens "billable_tokens"
  let maximumBillableTokens ← checkedAddI64 profile.maximumInputTokens
    profile.maximumOutputTokens "profile token 上界"
  rejectIf (billableTokens > maximumBillableTokens)
    (.invalidBilling "billable_tokens 超过 profile 授权上界")
  let variableGpuTimeUs ← ceilMulDiv billableTokens profile.gpuTimeUsPer1kTokens
    tokensPerRateUnit "参考 GPU 时间"
  let referenceGpuTimeUs ← checkedAddI64 profile.fixedGpuTimeUs variableGpuTimeUs
    "参考 GPU 时间求和"
  let referenceVramMibMicroseconds ← checkedMulI64 referenceGpuTimeUs
    profile.referenceVramMib "参考显存积分"
  let tokenCost ← MicroQuota.new (← ceilMulDiv billableTokens
    profile.tokenRateMicroPer1k tokensPerRateUnit "token 计费")
  let gpuCost ← MicroQuota.new (← ceilMulDiv referenceGpuTimeUs
    profile.gpuRateMicroPerSecond microsecondsPerSecond "GPU 时间计费")
  let vramCost ← MicroQuota.new (← ceilMulDiv referenceVramMibMicroseconds
    profile.vramRateMicroPerGibSecond mibMicrosecondsPerGibSecond "显存积分计费")
  let baseCost ← (← tokenCost.checkedAdd gpuCost).checkedAdd vramCost
  return { billableTokens, referenceGpuTimeUs, referenceVramMibMicroseconds,
           tokenCost, gpuCost, vramCost, baseCost }

def maximumReservationQuote (profile : ServerReferenceBillingProfile)
    (authorizedInputTokens authorizedMaxOutputTokens : Int) :
    Result PhysicalBillingQuote := do
  requireNonnegative authorizedInputTokens "authorized_input_tokens"
  requirePositive authorizedMaxOutputTokens "authorized_max_output_tokens"
  rejectIf (authorizedInputTokens > profile.maximumInputTokens ∨
      authorizedMaxOutputTokens > profile.maximumOutputTokens)
    (.invalidBilling "授权 token 超过 profile 上界")
  let billableTokens ← checkedAddI64 authorizedInputTokens authorizedMaxOutputTokens
    "准备金 token 上界"
  quoteServerReferenceUpperBound profile billableTokens

def maximumReservationMicro (profile : ServerReferenceBillingProfile)
    (authorizedInputTokens authorizedMaxOutputTokens : Int) : Result MicroQuota := do
  let quote ← maximumReservationQuote profile authorizedInputTokens
    authorizedMaxOutputTokens
  let settlement ← Settlement.calculate quote.baseCost .high .enhanced
  return settlement.userDeduction

@[simp] theorem requireNonnegative_eq_ok {value : Int} {field : String} {u : Unit} :
    requireNonnegative value field = .ok u ↔ 0 ≤ value := by
  simp [requireNonnegative]

@[simp] theorem requirePositive_eq_ok {value : Int} {field : String} {u : Unit} :
    requirePositive value field = .ok u ↔ 0 < value := by
  simp only [requirePositive, bind_eq_ok, requireNonnegative_eq_ok, rejectIf_eq_ok,
    exists_const]
  omega

theorem checkedAddI64_eq_ok {left right n : Int} {operation : String} :
    checkedAddI64 left right operation = .ok n ↔
      Fits 128 (left + right) ∧ Fits 64 (left + right) ∧ left + right = n := by
  simp only [checkedAddI64, bind_eq_ok, checkedI128_eq_ok, i64TryFrom_eq_ok]
  constructor
  · rintro ⟨_, ⟨wide, rfl⟩, narrow, rfl⟩
    exact ⟨wide, narrow, rfl⟩
  · rintro ⟨wide, narrow, rfl⟩
    exact ⟨_, ⟨wide, rfl⟩, narrow, rfl⟩

theorem checkedMulI64_eq_ok {left right n : Int} {operation : String} :
    checkedMulI64 left right operation = .ok n ↔
      Fits 128 (left * right) ∧ Fits 64 (left * right) ∧ left * right = n := by
  simp only [checkedMulI64, bind_eq_ok, checkedI128_eq_ok, i64TryFrom_eq_ok]
  constructor
  · rintro ⟨_, ⟨wide, rfl⟩, narrow, rfl⟩
    exact ⟨wide, narrow, rfl⟩
  · rintro ⟨wide, narrow, rfl⟩
    exact ⟨_, ⟨wide, rfl⟩, narrow, rfl⟩

/-- A rounded-up product of two positive words over a positive denominator is positive. -/
theorem ceilMulDiv_pos {left right denominator n : Int} {operation : String}
    (hl : 0 < left) (hr : 0 < right) (hd : 0 < denominator)
    (h : ceilMulDiv left right denominator operation = .ok n) : 0 < n := by
  simp only [ceilMulDiv, bind_eq_ok, checkedI128_eq_ok, i64TryFrom_eq_ok] at h
  obtain ⟨_, -, _, -, _, ⟨-, rfl⟩, _, ⟨-, rfl⟩, -, rfl⟩ := h
  exact ceilQuotient_pos (mul_pos hl hr) hd

/-- An accepted profile has every rate and every per-token time positive. -/
theorem ServerReferenceBillingProfile.validate_rates {self : ServerReferenceBillingProfile}
    {u : Unit} (h : self.validate = .ok u) :
    0 ≤ self.fixedGpuTimeUs ∧ 0 < self.gpuTimeUsPer1kTokens ∧ 0 < self.referenceVramMib ∧
      0 < self.tokenRateMicroPer1k ∧ 0 < self.gpuRateMicroPerSecond ∧
      0 < self.vramRateMicroPerGibSecond := by
  simp only [ServerReferenceBillingProfile.validate, bind_eq_ok, requireNonnegative_eq_ok,
    requirePositive_eq_ok] at h
  obtain ⟨_, -, _, -, _, fixed, _, time, _, vram, _, token, _, gpu, _, rate, -⟩ := h
  exact ⟨fixed, time, vram, token, gpu, rate⟩

/-- Each of the three rounded-up components contributes at least one unit. -/
theorem quoteServerReferenceUpperBound_baseCost {profile : ServerReferenceBillingProfile}
    {billableTokens : Int} {quote : PhysicalBillingQuote}
    (h : quoteServerReferenceUpperBound profile billableTokens = .ok quote) :
    3 ≤ quote.baseCost.asI64 ∧ Fits 64 quote.baseCost.asI64 := by
  simp only [quoteServerReferenceUpperBound, bind_eq_ok, requirePositive_eq_ok,
    rejectIf_eq_ok, checkedAddI64_eq_ok, checkedMulI64_eq_ok, MicroQuota.new_eq_ok,
    MicroQuota.checkedAdd_eq_ok] at h
  obtain ⟨_, valid, _, hbillable, _, -, _, -, perToken, hperToken, _, ⟨-, -, rfl⟩,
    _, ⟨-, -, rfl⟩, token, htoken, tokenCost, rfl, gpu, hgpu, gpuCost, rfl,
    vram, hvram, vramCost, rfl, partialCost, ⟨-, hparts⟩, baseCost, ⟨fits, hbase⟩, hq⟩ := h
  obtain ⟨fixed, time, mib, tokenRate, gpuRate, vramRate⟩ := profile.validate_rates valid
  have hv := ceilMulDiv_pos hbillable time (by decide) hperToken
  have hg : 0 < profile.fixedGpuTimeUs + perToken := by omega
  have h1 := ceilMulDiv_pos hbillable tokenRate (by decide) htoken
  have h2 := ceilMulDiv_pos hg gpuRate (by decide) hgpu
  have h3 := ceilMulDiv_pos (mul_pos hg mib) vramRate (by decide) hvram
  cases hq
  refine ⟨?_, hbase ▸ fits⟩
  show 3 ≤ baseCost.asI64
  omega

theorem maximumReservationQuote_baseCost {profile : ServerReferenceBillingProfile}
    {input output : Int} {quote : PhysicalBillingQuote}
    (h : maximumReservationQuote profile input output = .ok quote) :
    3 ≤ quote.baseCost.asI64 ∧ Fits 64 quote.baseCost.asI64 := by
  simp only [maximumReservationQuote, bind_eq_ok] at h
  obtain ⟨_, -, _, -, _, -, _, -, hquote⟩ := h
  exact quoteServerReferenceUpperBound_baseCost hquote

/-- The reservation is the deduction of the same quote at the highest multiplier. -/
theorem maximumReservationMicro_eq_ok {profile : ServerReferenceBillingProfile}
    {input output : Int} {reservation : MicroQuota} :
    maximumReservationMicro profile input output = .ok reservation ↔
      ∃ quote settlement, maximumReservationQuote profile input output = .ok quote ∧
        Settlement.calculate quote.baseCost .high .enhanced = .ok settlement ∧
        settlement.userDeduction = reservation := by
  simp only [maximumReservationMicro, bind_eq_ok]
  constructor
  · rintro ⟨quote, hquote, settlement, hsettlement, h⟩
    cases h
    exact ⟨quote, settlement, hquote, hsettlement, rfl⟩
  · rintro ⟨quote, settlement, hquote, hsettlement, rfl⟩
    exact ⟨quote, hquote, settlement, hsettlement, rfl⟩

theorem ceilMulDiv_eq_ok {left right denominator n : Int} {operation : String} :
    ceilMulDiv left right denominator operation = .ok n ↔
      0 ≤ left ∧ 0 ≤ right ∧ Fits 128 (left * right) ∧
        Fits 128 (left * right + (denominator - 1)) ∧ Fits 64 n ∧
        ceilQuotient (left * right) denominator = n := by
  simp only [ceilMulDiv, bind_eq_ok, requireNonnegative_eq_ok, checkedI128_eq_ok,
    i64TryFrom_eq_ok, exists_const, ceilQuotient]
  constructor
  · rintro ⟨hl, hr, _, ⟨h1, rfl⟩, _, ⟨h2, rfl⟩, h3, rfl⟩
    exact ⟨hl, hr, h1, h2, h3, rfl⟩
  · rintro ⟨hl, hr, h1, h2, h3, rfl⟩
    exact ⟨hl, hr, _, ⟨h1, rfl⟩, _, ⟨h2, rfl⟩, h3, rfl⟩

/-- A product that can be rounded up within the words can be for every smaller factor. -/
theorem ceilMulDiv_of_le {top left right denominator m : Int} {operation : String}
    (operation' : String) (htop : ceilMulDiv top right denominator operation = .ok m)
    (hl : 0 ≤ left) (hle : left ≤ top) (hd : 0 < denominator) :
    ceilMulDiv left right denominator operation' =
        .ok (ceilQuotient (left * right) denominator) ∧
      0 ≤ ceilQuotient (left * right) denominator ∧
      ceilQuotient (left * right) denominator ≤ m := by
  obtain ⟨-, hr, h1, h2, h3, rfl⟩ := ceilMulDiv_eq_ok.mp htop
  have hprod : 0 ≤ left * right := mul_nonneg hl hr
  have hprod' : left * right ≤ top * right := mul_le_mul_of_nonneg_right hle hr
  have hnonneg := ceilQuotient_nonneg hprod hd
  have hmono := ceilQuotient_mono hprod hd hprod'
  refine ⟨ceilMulDiv_eq_ok.mpr ⟨hl, hr, ?_, ?_, ?_, rfl⟩, hnonneg, hmono⟩
  · exact fits_of_between fits_zero h1 hprod hprod'
  · exact fits_of_between fits_zero h2 (by omega) (by omega)
  · exact fits_of_between fits_zero h3 hnonneg hmono

/-- The amounts of a quote, as formulas of the profile and the authorized tokens. -/
structure PhysicalBillingQuote.Follows (quote : PhysicalBillingQuote)
    (profile : ServerReferenceBillingProfile) (input output : Int) : Prop where
  billableTokens : quote.billableTokens = input + output
  referenceGpuTimeUs : quote.referenceGpuTimeUs = profile.fixedGpuTimeUs +
    ceilQuotient ((input + output) * profile.gpuTimeUsPer1kTokens) tokensPerRateUnit
  referenceVramMibMicroseconds : quote.referenceVramMibMicroseconds =
    quote.referenceGpuTimeUs * profile.referenceVramMib
  tokenCost : quote.tokenCost.asI64 =
    ceilQuotient ((input + output) * profile.tokenRateMicroPer1k) tokensPerRateUnit
  gpuCost : quote.gpuCost.asI64 =
    ceilQuotient (quote.referenceGpuTimeUs * profile.gpuRateMicroPerSecond)
      microsecondsPerSecond
  vramCost : quote.vramCost.asI64 =
    ceilQuotient (quote.referenceVramMibMicroseconds * profile.vramRateMicroPerGibSecond)
      mibMicrosecondsPerGibSecond
  baseCost : quote.baseCost.asI64 =
    quote.tokenCost.asI64 + quote.gpuCost.asI64 + quote.vramCost.asI64

theorem maximumReservationQuote_spec {profile : ServerReferenceBillingProfile}
    {input output : Int} {quote : PhysicalBillingQuote}
    (h : maximumReservationQuote profile input output = .ok quote) :
    0 ≤ input ∧ input ≤ profile.maximumInputTokens ∧ 0 < output ∧
      output ≤ profile.maximumOutputTokens ∧ quote.Follows profile input output := by
  simp only [maximumReservationQuote, quoteServerReferenceUpperBound, bind_eq_ok,
    requireNonnegative_eq_ok, requirePositive_eq_ok, rejectIf_eq_ok, exists_const,
    checkedAddI64_eq_ok, checkedMulI64_eq_ok, ceilMulDiv_eq_ok, MicroQuota.new_eq_ok,
    MicroQuota.checkedAdd_eq_ok] at h
  obtain ⟨hinput, houtput, hauthorized, _, ⟨-, -, rfl⟩, _, -, -, _, -, -, _,
    ⟨-, -, -, -, -, rfl⟩, _, ⟨-, -, rfl⟩, _, ⟨-, -, rfl⟩, _, ⟨-, -, -, -, -, rfl⟩,
    token, htoken, _, ⟨-, -, -, -, -, rfl⟩, gpu, hgpu, _, ⟨-, -, -, -, -, rfl⟩, vram, hvram,
    part, ⟨-, hpart⟩, base, ⟨-, hbase⟩, hquote⟩ := h
  cases hquote
  exact ⟨hinput, by omega, houtput, by omega, rfl, rfl, rfl, htoken.symm, hgpu.symm,
    hvram.symm, by rw [hpart]; exact hbase.symm⟩

/-- A valid profile quotes every authorization within its bounds. -/
theorem maximumReservationQuote_ok {profile : ServerReferenceBillingProfile}
    {input output : Int} (valid : profile.validate = .ok ()) (hinput : 0 ≤ input)
    (hinput' : input ≤ profile.maximumInputTokens) (houtput : 0 < output)
    (houtput' : output ≤ profile.maximumOutputTokens) :
    ∃ quote, maximumReservationQuote profile input output = .ok quote := by
  have hvalid := valid
  simp only [ServerReferenceBillingProfile.validate, bind_eq_ok, requireNonnegative_eq_ok,
    requirePositive_eq_ok, exists_const] at hvalid
  obtain ⟨-, -, hfixed, htime, hmib, htokenRate, hgpuRate, hvramRate, tokens, htokens,
    variableTime, hvariable, time, htimeSum, integral, hintegral, tokenTop, htokenTop, tokenCost,
    htokenCost, gpuTop, hgpuTop, gpuCost, hgpuCost, vramTop, hvramTop, vramCost, hvramCost,
    part, hpart, base, hbase, -⟩ := hvalid
  obtain ⟨wide, narrow, rfl⟩ := checkedAddI64_eq_ok.mp htokens
  obtain ⟨timeWide, timeNarrow, rfl⟩ := checkedAddI64_eq_ok.mp htimeSum
  obtain ⟨integralWide, integralNarrow, rfl⟩ := checkedMulI64_eq_ok.mp hintegral
  have hsum : input + output ≤ profile.maximumInputTokens + profile.maximumOutputTokens := by
    omega
  obtain ⟨qtime, ntime, ltime⟩ := ceilMulDiv_of_le "参考 GPU 时间" hvariable
    (by omega : 0 ≤ input + output) hsum (by decide)
  obtain ⟨qtoken, ntoken, ltoken⟩ := ceilMulDiv_of_le "token 计费" htokenTop
    (by omega : 0 ≤ input + output) hsum (by decide)
  set gpuTime := profile.fixedGpuTimeUs +
    ceilQuotient ((input + output) * profile.gpuTimeUsPer1kTokens) tokensPerRateUnit
    with hgpuTime
  have hlt : gpuTime ≤ profile.fixedGpuTimeUs + variableTime := by omega
  have hvram : gpuTime * profile.referenceVramMib ≤
      (profile.fixedGpuTimeUs + variableTime) * profile.referenceVramMib :=
    mul_le_mul_of_nonneg_right hlt hmib.le
  have hvram' : 0 ≤ gpuTime * profile.referenceVramMib := mul_nonneg (by omega) hmib.le
  obtain ⟨qgpu, ngpu, lgpu⟩ := ceilMulDiv_of_le "GPU 时间计费" hgpuTop
    (by omega : 0 ≤ gpuTime) hlt (by decide)
  obtain ⟨qvram, nvram, lvram⟩ := ceilMulDiv_of_le "显存积分计费" hvramTop hvram' hvram
    (by decide)
  obtain ⟨fpart, epart⟩ := MicroQuota.checkedAdd_eq_ok.mp hpart
  obtain ⟨fbase, ebase⟩ := MicroQuota.checkedAdd_eq_ok.mp hbase
  rw [MicroQuota.new_eq_ok] at htokenCost hgpuCost hvramCost
  have hparts := add_le_add (ltoken.trans htokenCost.le) (lgpu.trans hgpuCost.le)
  refine ⟨⟨input + output, gpuTime, gpuTime * profile.referenceVramMib, ⟨_, ntoken⟩,
    ⟨_, ngpu⟩, ⟨_, nvram⟩, ⟨_, add_nonneg (add_nonneg ntoken ngpu) nvram⟩⟩, ?_⟩
  simp only [maximumReservationQuote, quoteServerReferenceUpperBound, bind_eq_ok,
    requireNonnegative_eq_ok, requirePositive_eq_ok, rejectIf_eq_ok, exists_const,
    checkedAddI64_eq_ok, checkedMulI64_eq_ok]
  refine ⟨hinput, houtput, by omega, _,
    ⟨fits_of_between fits_zero wide (by omega) hsum,
      fits_of_between fits_zero narrow (by omega) hsum, rfl⟩, (), valid, by omega, _,
    ⟨wide, narrow, rfl⟩, by omega, _, qtime, _,
    ⟨fits_of_between fits_zero timeWide (by omega) (by omega),
      fits_of_between fits_zero timeNarrow (by omega) (by omega), rfl⟩, _,
    ⟨fits_of_between fits_zero integralWide hvram' hvram,
      fits_of_between fits_zero integralNarrow hvram' hvram, rfl⟩,
    _, qtoken, ⟨_, ntoken⟩, MicroQuota.new_eq_ok.mpr rfl,
    _, qgpu, ⟨_, ngpu⟩, MicroQuota.new_eq_ok.mpr rfl,
    _, qvram, ⟨_, nvram⟩, MicroQuota.new_eq_ok.mpr rfl,
    ⟨_, add_nonneg ntoken ngpu⟩, MicroQuota.checkedAdd_eq_ok.mpr ⟨?_, rfl⟩,
    ⟨_, add_nonneg (add_nonneg ntoken ngpu) nvram⟩,
    MicroQuota.checkedAdd_eq_ok.mpr ⟨?_, rfl⟩, rfl⟩
  · exact fits_of_between fits_zero fpart (add_nonneg ntoken ngpu) hparts
  · exact fits_of_between fits_zero fbase (add_nonneg (add_nonneg ntoken ngpu) nvram)
      (add_le_add (hparts.trans epart.le) (lvram.trans hvramCost.le))

section Coverage
variable {base : MicroQuota} {top s : Settlement} {tier : PerformanceTier}
  {trust : TrustClass}

theorem deduction_le_high (base : MicroQuota) (tier : PerformanceTier) :
    ceilQuotient (base.asI64 * tier.multiplierMilli) 1000 ≤
      ceilQuotient (base.asI64 * PerformanceTier.high.multiplierMilli) 1000 := by
  have ht := tier.multiplierMilli_bounds
  have hb := base.nonneg
  exact ceilQuotient_mono (mul_nonneg hb (by omega)) (by norm_num)
    (mul_le_mul_of_nonneg_left ht.2 hb)

/-- A base cost that settles at the highest multipliers settles at every other. -/
theorem Settlement.calculate_ok_of_top (hbase : Fits 64 base.asI64)
    (htop : Settlement.calculate base .high .enhanced = .ok top) :
    ∃ s, Settlement.calculate base tier trust = .ok s := by
  obtain ⟨hd, -, hp, -, fd, fp, -, -⟩ := Settlement.calculate_spec htop
  have hb := base.nonneg
  have ht := tier.multiplierMilli_bounds
  have hu := trust.multiplierMilli_bounds
  have hle := deduction_le_high base tier
  have hnonneg : 0 ≤ ceilQuotient (base.asI64 * tier.multiplierMilli) 1000 :=
    ceilQuotient_nonneg (mul_nonneg hb (by omega)) (by norm_num)
  rw [hd] at fd hp
  rw [hp] at fp
  refine Settlement.calculate_ok hbase (fits_of_between fits_zero fd hnonneg hle)
    (fits_of_between fits_zero fp ?_ ?_)
  · exact tdiv_nonneg_of (mul_nonneg (by omega) (by omega)) (by norm_num)
  · refine tdiv_mono (mul_nonneg (by omega) (by omega)) (by norm_num) ?_
    exact mul_le_mul (by omega) hu.2 (by omega) (by omega)

theorem Settlement.userDeduction_le_top
    (htop : Settlement.calculate base .high .enhanced = .ok top)
    (h : Settlement.calculate base tier trust = .ok s) :
    s.userDeduction.asI64 ≤ top.userDeduction.asI64 := by
  rw [(Settlement.calculate_spec htop).1, (Settlement.calculate_spec h).1]
  exact deduction_le_high base tier

/-- From three units on, the two shares of the deduction are both at least one unit. -/
theorem Settlement.shares_pos (hbase : 3 ≤ base.asI64)
    (h : Settlement.calculate base tier trust = .ok s) :
    1 ≤ s.nodeSpendableQuota.asI64 ∧ 1 ≤ s.reserveInflow.asI64 := by
  obtain ⟨hd, hq, -, hsum, -⟩ := Settlement.calculate_spec h
  have ht := tier.multiplierMilli_bounds
  have hu := trust.multiplierMilli_bounds
  have hcost : base.asI64 * 700 ≤ base.asI64 * tier.multiplierMilli :=
    mul_le_mul_of_nonneg_left ht.1 (by omega)
  have hcover := le_ceilQuotient_mul (n := base.asI64 * tier.multiplierMilli) (d := 1000)
    (by omega) (by norm_num)
  rw [← hd] at hcover
  have hlow : s.userDeduction.asI64 * 800 * 500 ≤
      s.userDeduction.asI64 * 800 * trust.multiplierMilli :=
    mul_le_mul_of_nonneg_left hu.1 (by omega)
  have hhigh : s.userDeduction.asI64 * 800 * trust.multiplierMilli ≤
      s.userDeduction.asI64 * 800 * 1100 :=
    mul_le_mul_of_nonneg_left hu.2 (by omega)
  have hfloor := tdiv_mul_le_self (n := s.userDeduction.asI64 * 800 * trust.multiplierMilli)
    (d := 1000000) (by omega) (by norm_num)
  rw [← hq] at hfloor
  constructor
  · rw [hq]
    exact (tdiv_le_iff (by omega) (by norm_num)).mpr (by omega)
  · omega

end Coverage

end MindOne.Accounting
