import MindOne.Lib.PgNumeric
import MindOne.Database.LedgerHash
import MindOne.Coordinator.Requests

/-!
# The billing contract of the database

A job stores the profile, the authorized tokens and the amounts of its quote,
and a check of the table computes the amounts again. The service divides
integers and rounds up; the database divides decimals, and rounds up a quotient
that has been rounded already. The main result says for which profiles and
authorizations the two agree.
-/

namespace MindOne.Database

open CheckedArithmetic Accounting Coordinator PgNumeric

/-- The arguments of the check, each a column that may be null. -/
structure BillingColumns where
  contractVersion : Option String
  profileId : Option Uuid
  profileVersion : Option Int
  profileFingerprint : Option String
  modelWeightsHash : Option String
  referenceHardwareClass : Option String
  profileEvidenceHash : Option String
  profileValidFrom : Option Int
  profileValidUntil : Option Int
  profileMaxInputTokens : Option Int
  profileMaxOutputTokens : Option Int
  fixedGpuTimeUs : Option Int
  gpuTimeUsPer1kTokens : Option Int
  referenceVramMib : Option Int
  tokenRateMicroPer1k : Option Int
  gpuRateMicroPerSecond : Option Int
  vramRateMicroPerGibSecond : Option Int
  authorizedInputTokens : Option Int
  authorizedMaxOutputTokens : Option Int
  billableTokens : Option Int
  referenceGpuTimeUs : Option Int
  referenceVramMibMicroseconds : Option Int
  tokenCostMicro : Option Int
  gpuCostMicro : Option Int
  vramCostMicro : Option Int
  baseCostMicro : Option Int

/-- `text ~ '^[0-9a-f]{64}$'`. -/
def isSha256Hex (text : String) : Bool :=
  text.toList.length = 64 &&
    text.toList.all fun c => ('0' ≤ c && c ≤ '9') || ('a' ≤ c && c ≤ 'f')

/-- `btrim` removes spaces at both ends. -/
def btrim (text : String) : String :=
  String.ofList
    ((text.toList.dropWhile (· = ' ')).reverse.dropWhile (· = ' ')).reverse

/-- `ceil(x / y)` on decimals. -/
def ceilDivide (x y : Int) : Int := (divide x y).ceil

/-- The conditions on the columns that name the profile. -/
def ProfileNamed (profileVersion : Int) (profileFingerprint modelWeightsHash
    referenceHardwareClass profileEvidenceHash : String)
    (profileValidFrom profileValidUntil : Int) : Prop :=
  profileVersion > 0 ∧ isSha256Hex profileFingerprint = true ∧
    isSha256Hex modelWeightsHash = true ∧
    (1 ≤ octetLength referenceHardwareClass ∧ octetLength referenceHardwareClass ≤ 128) ∧
    referenceHardwareClass = btrim referenceHardwareClass ∧
    hasControl referenceHardwareClass = false ∧ isSha256Hex profileEvidenceHash = true ∧
    profileValidUntil > profileValidFrom

instance (profileVersion : Int) (profileFingerprint modelWeightsHash referenceHardwareClass
    profileEvidenceHash : String) (profileValidFrom profileValidUntil : Int) :
    Decidable (ProfileNamed profileVersion profileFingerprint modelWeightsHash
      referenceHardwareClass profileEvidenceHash profileValidFrom profileValidUntil) :=
  inferInstanceAs (Decidable (_ ∧ _))

/-- The conditions on the integer columns. -/
def AmountsHold (profile : ServerReferenceBillingProfile)
    (authorizedInputTokens authorizedMaxOutputTokens billableTokens referenceGpuTimeUs
      referenceVramMibMicroseconds tokenCostMicro gpuCostMicro vramCostMicro
      baseCostMicro : Int) : Prop :=
  profile.maximumInputTokens ≥ 0 ∧ profile.maximumOutputTokens > 0 ∧
    profile.fixedGpuTimeUs ≥ 0 ∧ profile.gpuTimeUsPer1kTokens > 0 ∧
    profile.referenceVramMib > 0 ∧ profile.tokenRateMicroPer1k > 0 ∧
    profile.gpuRateMicroPerSecond > 0 ∧ profile.vramRateMicroPerGibSecond > 0 ∧
    authorizedInputTokens ≥ 0 ∧ authorizedMaxOutputTokens > 0 ∧
    authorizedInputTokens ≤ profile.maximumInputTokens ∧
    authorizedMaxOutputTokens ≤ profile.maximumOutputTokens ∧
    billableTokens = authorizedInputTokens + authorizedMaxOutputTokens ∧
    referenceGpuTimeUs = profile.fixedGpuTimeUs +
      ceilDivide (billableTokens * profile.gpuTimeUsPer1kTokens) 1000 ∧
    referenceVramMibMicroseconds = referenceGpuTimeUs * profile.referenceVramMib ∧
    tokenCostMicro = ceilDivide (billableTokens * profile.tokenRateMicroPer1k) 1000 ∧
    gpuCostMicro = ceilDivide (referenceGpuTimeUs * profile.gpuRateMicroPerSecond) 1000000 ∧
    vramCostMicro = ceilDivide
      (referenceVramMibMicroseconds * profile.vramRateMicroPerGibSecond) 1024000000 ∧
    tokenCostMicro > 0 ∧ gpuCostMicro > 0 ∧ vramCostMicro > 0 ∧
    baseCostMicro = tokenCostMicro + gpuCostMicro + vramCostMicro

instance (profile : ServerReferenceBillingProfile) (input output billable time integral token
    gpu vram base : Int) :
    Decidable (AmountsHold profile input output billable time integral token gpu vram base) :=
  inferInstanceAs (Decidable (_ ∧ _))

namespace BillingColumns

/-- Every column but the version is null. -/
def snapshotIsNull (p : BillingColumns) : Bool :=
  p.profileId.isNone && p.profileVersion.isNone && p.profileFingerprint.isNone &&
    p.modelWeightsHash.isNone && p.referenceHardwareClass.isNone &&
    p.profileEvidenceHash.isNone && p.profileValidFrom.isNone &&
    p.profileValidUntil.isNone && p.profileMaxInputTokens.isNone &&
    p.profileMaxOutputTokens.isNone && p.fixedGpuTimeUs.isNone &&
    p.gpuTimeUsPer1kTokens.isNone && p.referenceVramMib.isNone &&
    p.tokenRateMicroPer1k.isNone && p.gpuRateMicroPerSecond.isNone &&
    p.vramRateMicroPerGibSecond.isNone && p.authorizedInputTokens.isNone &&
    p.authorizedMaxOutputTokens.isNone && p.billableTokens.isNone &&
    p.referenceGpuTimeUs.isNone && p.referenceVramMibMicroseconds.isNone &&
    p.tokenCostMicro.isNone && p.gpuCostMicro.isNone && p.vramCostMicro.isNone &&
    p.baseCostMicro.isNone

/-- The branch of the current contract. Every column takes part in a condition that is
not true of a null. -/
def serverReferenceHolds (p : BillingColumns) : Option Bool := do
  let _ ← p.profileId
  let profileVersion ← p.profileVersion
  let profileFingerprint ← p.profileFingerprint
  let modelWeightsHash ← p.modelWeightsHash
  let referenceHardwareClass ← p.referenceHardwareClass
  let profileEvidenceHash ← p.profileEvidenceHash
  let profileValidFrom ← p.profileValidFrom
  let profileValidUntil ← p.profileValidUntil
  let maximumInputTokens ← p.profileMaxInputTokens
  let maximumOutputTokens ← p.profileMaxOutputTokens
  let fixedGpuTimeUs ← p.fixedGpuTimeUs
  let gpuTimeUsPer1kTokens ← p.gpuTimeUsPer1kTokens
  let referenceVramMib ← p.referenceVramMib
  let tokenRateMicroPer1k ← p.tokenRateMicroPer1k
  let gpuRateMicroPerSecond ← p.gpuRateMicroPerSecond
  let vramRateMicroPerGibSecond ← p.vramRateMicroPerGibSecond
  let authorizedInputTokens ← p.authorizedInputTokens
  let authorizedMaxOutputTokens ← p.authorizedMaxOutputTokens
  let billableTokens ← p.billableTokens
  let referenceGpuTimeUs ← p.referenceGpuTimeUs
  let referenceVramMibMicroseconds ← p.referenceVramMibMicroseconds
  let tokenCostMicro ← p.tokenCostMicro
  let gpuCostMicro ← p.gpuCostMicro
  let vramCostMicro ← p.vramCostMicro
  let baseCostMicro ← p.baseCostMicro
  return decide (ProfileNamed profileVersion profileFingerprint modelWeightsHash
      referenceHardwareClass profileEvidenceHash profileValidFrom profileValidUntil ∧
    AmountsHold ⟨maximumInputTokens, maximumOutputTokens, fixedGpuTimeUs,
        gpuTimeUsPer1kTokens, referenceVramMib, tokenRateMicroPer1k, gpuRateMicroPerSecond,
        vramRateMicroPerGibSecond⟩
      authorizedInputTokens authorizedMaxOutputTokens billableTokens referenceGpuTimeUs
      referenceVramMibMicroseconds tokenCostMicro gpuCostMicro vramCostMicro baseCostMicro)

end BillingColumns

def mindonePhysicalBillingSnapshotIsValidV1 (p : BillingColumns) : Bool :=
  match p.contractVersion with
  | none => p.snapshotIsNull
  | some version =>
      if version = "legacy_token_v1" then p.snapshotIsNull
      else if version = "server_reference_upper_bound_v1" then
        p.serverReferenceHolds = some true
      else false

end MindOne.Database

namespace MindOne.Coordinator

open CheckedArithmetic Accounting Database PgNumeric

/-- The columns that a job is inserted with. -/
def JobBillingSnapshot.columns (frozen : JobBillingSnapshot) : BillingColumns where
  contractVersion := some frozen.profile.contractVersion
  profileId := some frozen.profile.profileId
  profileVersion := some frozen.profile.profileVersion
  profileFingerprint := some frozen.profile.profileFingerprint
  modelWeightsHash := some frozen.profile.modelWeightsHash
  referenceHardwareClass := some frozen.profile.referenceHardwareClass
  profileEvidenceHash := some frozen.profile.evidenceHash
  profileValidFrom := some frozen.profile.validFrom
  profileValidUntil := some frozen.profile.validUntil
  profileMaxInputTokens := some frozen.profile.profile.maximumInputTokens
  profileMaxOutputTokens := some frozen.profile.profile.maximumOutputTokens
  fixedGpuTimeUs := some frozen.profile.profile.fixedGpuTimeUs
  gpuTimeUsPer1kTokens := some frozen.profile.profile.gpuTimeUsPer1kTokens
  referenceVramMib := some frozen.profile.profile.referenceVramMib
  tokenRateMicroPer1k := some frozen.profile.profile.tokenRateMicroPer1k
  gpuRateMicroPerSecond := some frozen.profile.profile.gpuRateMicroPerSecond
  vramRateMicroPerGibSecond := some frozen.profile.profile.vramRateMicroPerGibSecond
  authorizedInputTokens := some frozen.authorizedInputTokens
  authorizedMaxOutputTokens := some frozen.authorizedMaxOutputTokens
  billableTokens := some frozen.billableTokens
  referenceGpuTimeUs := some frozen.referenceGpuTimeUs
  referenceVramMibMicroseconds := some frozen.referenceVramMibMicroseconds
  tokenCostMicro := some frozen.tokenCostMicro
  gpuCostMicro := some frozen.gpuCostMicro
  vramCostMicro := some frozen.vramCostMicro
  baseCostMicro := some frozen.baseCostMicro

/-- A row of `billing_profiles`: the table checks the columns that name the profile. -/
def BillingProfileSnapshot.Named (snapshot : BillingProfileSnapshot) : Prop :=
  snapshot.contractVersion = serverReferenceUpperBoundV1 ∧
    ProfileNamed snapshot.profileVersion snapshot.profileFingerprint snapshot.modelWeightsHash
      snapshot.referenceHardwareClass snapshot.evidenceHash snapshot.validFrom
      snapshot.validUntil

instance (snapshot : BillingProfileSnapshot) : Decidable snapshot.Named :=
  inferInstanceAs (Decidable (_ ∧ _))

def JobBillingSnapshot.AmountsHold (frozen : JobBillingSnapshot) : Prop :=
  Database.AmountsHold frozen.profile.profile frozen.authorizedInputTokens
    frozen.authorizedMaxOutputTokens frozen.billableTokens frozen.referenceGpuTimeUs
    frozen.referenceVramMibMicroseconds frozen.tokenCostMicro frozen.gpuCostMicro
    frozen.vramCostMicro frozen.baseCostMicro

instance (frozen : JobBillingSnapshot) : Decidable frozen.AmountsHold :=
  inferInstanceAs (Decidable (Database.AmountsHold ..))

theorem JobBillingSnapshot.columns_valid_iff {frozen : JobBillingSnapshot}
    (named : frozen.profile.Named) :
    mindonePhysicalBillingSnapshotIsValidV1 frozen.columns = true ↔ frozen.AmountsHold := by
  obtain ⟨version, named⟩ := named
  have hbranch : frozen.columns.serverReferenceHolds =
      some (decide (ProfileNamed frozen.profile.profileVersion
        frozen.profile.profileFingerprint frozen.profile.modelWeightsHash
        frozen.profile.referenceHardwareClass frozen.profile.evidenceHash
        frozen.profile.validFrom frozen.profile.validUntil ∧ frozen.AmountsHold)) := rfl
  have hversion : frozen.columns.contractVersion = some serverReferenceUpperBoundV1 :=
    congrArg some version
  simp only [mindonePhysicalBillingSnapshotIsValidV1, hversion, serverReferenceUpperBoundV1,
    hbranch]
  simp [named]

/-- No quotient of the contract loses its remainder when it is rounded to a decimal. -/
def QuotientsKeepRemainders (profile : ServerReferenceBillingProfile)
    (authorizedInputTokens authorizedMaxOutputTokens : Int) : Prop :=
  let tokens := authorizedInputTokens + authorizedMaxOutputTokens
  let gpuTime := profile.fixedGpuTimeUs +
    ceilQuotient (tokens * profile.gpuTimeUsPer1kTokens) 1000
  KeepsRemainder (tokens * profile.gpuTimeUsPer1kTokens) 1000 ∧
    KeepsRemainder (tokens * profile.tokenRateMicroPer1k) 1000 ∧
    KeepsRemainder (gpuTime * profile.gpuRateMicroPerSecond) 1000000 ∧
    KeepsRemainder (gpuTime * profile.referenceVramMib * profile.vramRateMicroPerGibSecond)
      1024000000

theorem ceilDivide_eq_iff {x y : Int} (hx : 0 ≤ x) (hy : 0 < y) :
    ceilDivide x y = ceilQuotient x y ↔ KeepsRemainder x y :=
  ceil_divide_eq_iff hx hy fun _ => ceilQuotient_le_iff hx hy

section Agreement
variable {profile : ServerReferenceBillingProfile} {input output : Int}
  {billable time integral token gpu vram base : Int} {quote : PhysicalBillingQuote}

/-- Amounts that hold for the database under this condition are those of the quote. -/
theorem eq_quote_of_amountsHold (keeps : QuotientsKeepRemainders profile input output)
    (h : AmountsHold profile input output billable time integral token gpu vram base)
    (follows : quote.Follows profile input output) :
    billable = quote.billableTokens ∧ time = quote.referenceGpuTimeUs ∧
      integral = quote.referenceVramMibMicroseconds ∧ token = quote.tokenCost.asI64 ∧
      gpu = quote.gpuCost.asI64 ∧ vram = quote.vramCost.asI64 ∧
      base = quote.baseCost.asI64 := by
  obtain ⟨-, -, hfixed, htime, hmib, htoken, hgpu, hvram, hinput, houtput, -, -, rfl, rfl, rfl,
    rfl, rfl, rfl, -, -, -, rfl⟩ := h
  obtain ⟨keptTime, keptToken, keptGpu, keptVram⟩ := keeps
  have htokens : 0 ≤ input + output := by omega
  have hnonneg : 0 ≤ profile.fixedGpuTimeUs +
      ceilQuotient ((input + output) * profile.gpuTimeUsPer1kTokens) 1000 :=
    add_nonneg hfixed (ceilQuotient_nonneg (mul_nonneg htokens htime.le) (by decide))
  rw [(ceilDivide_eq_iff (mul_nonneg htokens htime.le) (by decide)).mpr keptTime,
    (ceilDivide_eq_iff (mul_nonneg htokens htoken.le) (by decide)).mpr keptToken,
    (ceilDivide_eq_iff (mul_nonneg hnonneg hgpu.le) (by decide)).mpr keptGpu,
    (ceilDivide_eq_iff (mul_nonneg (mul_nonneg hnonneg hmib.le) hvram.le)
      (by decide)).mpr keptVram]
  rw [follows.baseCost, follows.vramCost, follows.gpuCost, follows.tokenCost,
    follows.referenceVramMibMicroseconds, follows.referenceGpuTimeUs, follows.billableTokens]
  exact ⟨rfl, rfl, rfl, rfl, rfl, rfl, rfl⟩

/-- The amounts of a quote hold for the database exactly under this condition. -/
theorem amountsHold_quote_iff (valid : profile.validate = .ok ())
    (hquote : maximumReservationQuote profile input output = .ok quote) :
    AmountsHold profile input output quote.billableTokens quote.referenceGpuTimeUs
        quote.referenceVramMibMicroseconds quote.tokenCost.asI64 quote.gpuCost.asI64
        quote.vramCost.asI64 quote.baseCost.asI64 ↔
      QuotientsKeepRemainders profile input output := by
  obtain ⟨hinput, hinput', houtput, houtput', follows⟩ := maximumReservationQuote_spec hquote
  obtain ⟨hfixed, htime, hmib, htoken, hgpu, hvram⟩ := profile.validate_rates valid
  have htokens : 0 < input + output := by omega
  have etime := follows.referenceGpuTimeUs
  have eintegral := follows.referenceVramMibMicroseconds
  have etoken := follows.tokenCost
  have egpu := follows.gpuCost
  have evram := follows.vramCost
  have hvariable := ceilQuotient_pos (mul_pos htokens htime) (d := 1000) (by decide)
  have hpositive : 0 < quote.referenceGpuTimeUs := by
    rw [etime]
    exact add_pos_of_nonneg_of_pos hfixed hvariable
  have hintegral : 0 < quote.referenceVramMibMicroseconds := by
    rw [eintegral]
    exact mul_pos hpositive hmib
  have keptTime := ceilDivide_eq_iff (mul_nonneg htokens.le htime.le) (y := 1000) (by decide)
  have keptToken := ceilDivide_eq_iff (mul_nonneg htokens.le htoken.le) (y := 1000) (by decide)
  have keptGpu := ceilDivide_eq_iff (mul_nonneg hpositive.le hgpu.le) (y := 1000000) (by decide)
  have keptVram := ceilDivide_eq_iff (mul_nonneg hintegral.le hvram.le) (y := 1024000000)
    (by decide)
  have hkeeps : QuotientsKeepRemainders profile input output ↔
      KeepsRemainder ((input + output) * profile.gpuTimeUsPer1kTokens) 1000 ∧
      KeepsRemainder ((input + output) * profile.tokenRateMicroPer1k) 1000 ∧
      KeepsRemainder (quote.referenceGpuTimeUs * profile.gpuRateMicroPerSecond) 1000000 ∧
      KeepsRemainder (quote.referenceVramMibMicroseconds * profile.vramRateMicroPerGibSecond)
        1024000000 := by
    rw [eintegral, etime]
    rfl
  rw [hkeeps, ← keptTime, ← keptToken, ← keptGpu, ← keptVram]
  constructor
  · rintro ⟨-, -, -, -, -, -, -, -, -, -, -, -, hb, ht, -, hc, hg, hv, -⟩
    rw [hb] at ht hc
    rw [etime] at ht
    refine ⟨(add_left_cancel ht).symm, hc.symm.trans etoken, hg.symm.trans egpu,
      hv.symm.trans evram⟩
  · rintro ⟨ht, hc, hg, hv⟩
    have tokenPos : 0 < quote.tokenCost.asI64 := by
      rw [etoken]
      exact ceilQuotient_pos (mul_pos htokens htoken) (by decide)
    have gpuPos : 0 < quote.gpuCost.asI64 := by
      rw [egpu]
      exact ceilQuotient_pos (mul_pos hpositive hgpu) (by decide)
    have vramPos : 0 < quote.vramCost.asI64 := by
      rw [evram]
      exact ceilQuotient_pos (mul_pos hintegral hvram) (by decide)
    refine ⟨by omega, by omega, hfixed, htime, hmib, htoken, hgpu, hvram, hinput, houtput,
      hinput', houtput', follows.billableTokens, ?_, eintegral, ?_, egpu.trans hg.symm,
      evram.trans hv.symm, tokenPos, gpuPos, vramPos, follows.baseCost⟩
    · rw [follows.billableTokens, ht]
      exact etime
    · rw [follows.billableTokens, hc]
      exact etoken

end Agreement

/-- The amounts of a quote are stored, and only they can be, exactly when no quotient
of the contract loses its remainder. -/
theorem quotes_agree_with_contract (snapshot : BillingProfileSnapshot)
    (named : snapshot.Named) (valid : snapshot.profile.validate = .ok ())
    (input output : Int) :
    ((∀ quote, maximumReservationQuote snapshot.profile input output = .ok quote →
        mindonePhysicalBillingSnapshotIsValidV1
          (JobBillingSnapshot.ofQuote snapshot input output quote).columns = true) ∧
      ∀ frozen : JobBillingSnapshot, frozen.profile = snapshot →
        frozen.authorizedInputTokens = input → frozen.authorizedMaxOutputTokens = output →
        mindonePhysicalBillingSnapshotIsValidV1 frozen.columns = true →
        ∃ quote, maximumReservationQuote snapshot.profile input output = .ok quote ∧
          frozen = .ofQuote snapshot input output quote) ↔
      (0 ≤ input ∧ input ≤ snapshot.profile.maximumInputTokens → 0 < output ∧
        output ≤ snapshot.profile.maximumOutputTokens →
        QuotientsKeepRemainders snapshot.profile input output) := by
  constructor
  · rintro ⟨stored, -⟩ ⟨hinput, hinput'⟩ ⟨houtput, houtput'⟩
    obtain ⟨quote, hquote⟩ := maximumReservationQuote_ok valid hinput hinput' houtput houtput'
    have haccepted := stored quote hquote
    rw [JobBillingSnapshot.columns_valid_iff named] at haccepted
    exact (amountsHold_quote_iff valid hquote).mp haccepted
  · intro keeps
    constructor
    · intro quote hquote
      obtain ⟨hinput, hinput', houtput, houtput', -⟩ := maximumReservationQuote_spec hquote
      rw [JobBillingSnapshot.columns_valid_iff named]
      exact (amountsHold_quote_iff valid hquote).mpr
        (keeps ⟨hinput, hinput'⟩ ⟨houtput, houtput'⟩)
    · rintro frozen rfl rfl rfl haccepted
      rw [JobBillingSnapshot.columns_valid_iff named] at haccepted
      have hbounds := haccepted
      obtain ⟨-, -, -, -, -, -, -, -, hinput, houtput, hinput', houtput', -⟩ := hbounds
      obtain ⟨quote, hquote⟩ :=
        maximumReservationQuote_ok valid hinput hinput' houtput houtput'
      obtain ⟨-, -, -, -, follows⟩ := maximumReservationQuote_spec hquote
      obtain ⟨hb, ht, hi, hc, hg, hv, hbase⟩ :=
        eq_quote_of_amountsHold (keeps ⟨hinput, hinput'⟩ ⟨houtput, houtput'⟩) haccepted follows
      refine ⟨quote, hquote, ?_⟩
      rw [JobBillingSnapshot.ofQuote, ← hb, ← ht, ← hi, ← hc, ← hg, ← hv, ← hbase]

def sampleDigest : String := "e3b0c44298fc1c149afbf4c8996fb92427ae41e4649b934ca495991b7852b855"

/-- A row of `billing_profiles` for a profile. -/
def sampleNamed (profile : ServerReferenceBillingProfile) : BillingProfileSnapshot where
  contractVersion := serverReferenceUpperBoundV1
  profileId := .fromU128 2
  profileVersion := 1
  modelId := .fromU128 1
  profileFingerprint := sampleDigest
  modelWeightsHash := sampleDigest
  referenceHardwareClass := "gpu-24g"
  evidenceHash := sampleDigest
  validFrom := 0
  validUntil := 1000000000000
  profile

theorem sampleNamed_named (profile : ServerReferenceBillingProfile) :
    (sampleNamed profile).Named := by
  have named : ProfileNamed 1 sampleDigest sampleDigest "gpu-24g" sampleDigest 0
      1000000000000 := by decide +kernel
  exact ⟨rfl, named⟩

/-- A profile of ordinary magnitudes. -/
def ordinaryProfile : ServerReferenceBillingProfile :=
  ⟨4096, 1024, 100000, 2000000, 8192, 1000000, 2000, 3000⟩

/-- A profile whose token rate makes the quotient longer than sixteen digits. -/
def largeRateProfile : ServerReferenceBillingProfile :=
  ⟨0, 1001, 0, 1000, 1, 10000000000000001, 1, 1⟩

theorem quotes_agree_with_contract_sample :
    (∃ quote, maximumReservationQuote ordinaryProfile 476 1024 = .ok quote) ∧
      ∀ quote, maximumReservationQuote ordinaryProfile 476 1024 = .ok quote →
        mindonePhysicalBillingSnapshotIsValidV1 (JobBillingSnapshot.ofQuote
          (sampleNamed ordinaryProfile) 476 1024 quote).columns = true := by
  have valid : ordinaryProfile.validate = .ok () := by decide +kernel
  refine ⟨maximumReservationQuote_ok valid (by decide) (by decide) (by decide) (by decide), ?_⟩
  refine ((quotes_agree_with_contract (sampleNamed ordinaryProfile)
    (sampleNamed_named ordinaryProfile) valid 476 1024).mpr fun _ _ => ?_).1
  show QuotientsKeepRemainders ordinaryProfile 476 1024
  simp only [QuotientsKeepRemainders]
  decide +kernel

/-- The service quotes one microquota more than the database computes, so the quote of a
valid profile cannot be stored. -/
theorem quotes_agree_with_contract_fails :
    (sampleNamed largeRateProfile).Named ∧ largeRateProfile.validate = .ok () ∧
      ∃ quote, maximumReservationQuote largeRateProfile 0 1001 = .ok quote ∧
        quote.tokenCost.asI64 = 10010000000000002 ∧
        ceilDivide (quote.billableTokens * largeRateProfile.tokenRateMicroPer1k) 1000 =
          10010000000000001 ∧
        mindonePhysicalBillingSnapshotIsValidV1 (JobBillingSnapshot.ofQuote
          (sampleNamed largeRateProfile) 0 1001 quote).columns = false := by
  have valid : largeRateProfile.validate = .ok () := by decide +kernel
  obtain ⟨quote, hquote⟩ : ∃ quote, maximumReservationQuote largeRateProfile 0 1001 = .ok quote :=
    maximumReservationQuote_ok valid (by decide) (by decide) (by decide) (by decide)
  obtain ⟨-, -, -, -, follows⟩ := maximumReservationQuote_spec hquote
  refine ⟨sampleNamed_named _, valid, quote, hquote, follows.tokenCost.trans (by decide +kernel),
    ?_, ?_⟩
  · rw [follows.billableTokens]
    decide +kernel
  · rw [Bool.eq_false_iff, ne_eq, JobBillingSnapshot.columns_valid_iff (sampleNamed_named _)]
    intro accepted
    have hkeeps := (amountsHold_quote_iff valid hquote).mp accepted
    have hfalse : ¬ KeepsRemainder (1001 * 10000000000000001) 1000 := by decide +kernel
    exact hfalse hkeeps.2.1

end MindOne.Coordinator
