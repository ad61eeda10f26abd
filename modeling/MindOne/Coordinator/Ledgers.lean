import MindOne.Accounting.Billing
import MindOne.Database.LedgerInvariant

/-!
# Ledger entries written by the coordinator

A settlement writes four ledger entries: the consumer pays, the node is
credited with quota and with contribution, and the reserve takes the rest. Each
entry is built and checked by the service before it is inserted. The main
result is that a job admitted under its reservation never fails to build them.
-/

namespace MindOne.Coordinator

open CheckedArithmetic Accounting Database KeyedTable

structure ApiError where
  status : Nat
  code : Int
  errorType : String
  message : String
  deriving DecidableEq, Repr

namespace ApiError

def badRequest (errorType message : String) : ApiError := ⟨400, 1, errorType, message⟩

def forbidden (message : String) : ApiError := ⟨403, 10, "forbidden", message⟩

def notFound (resource : String) : ApiError := ⟨404, 1, "not_found", "未找到" ++ resource⟩

def conflict (errorType message : String) : ApiError := ⟨409, 1, errorType, message⟩

def insufficientQuota : ApiError := ⟨402, 40, "insufficient_quota", "可用额度不足"⟩

def policyRejected (message : String) : ApiError := ⟨403, 50, "node_policy_rejected", message⟩

def unavailable (errorType message : String) : ApiError := ⟨503, 1, errorType, message⟩

def attestationFailed (message : String) : ApiError := ⟨422, 30, "attestation_failed", message⟩

def internal : ApiError := ⟨500, 1, "internal_error", "协调服务器内部错误"⟩

end ApiError

abbrev ApiResult (α : Type) := Except ApiError α

/-- Errors of the database and of the accounting rules reach the caller as an
internal error. -/
def orInternal {ε α : Type} : Except ε α → ApiResult α
  | .ok a => .ok a
  | .error _ => .error .internal

@[simp] theorem orInternal_eq_ok {ε α : Type} {x : Except ε α} {a : α} :
    orInternal x = .ok a ↔ x = .ok a := by
  cases x <;> simp [orInternal]

/-- `fetch_one`: a missing row is a database error. -/
def fetchOne {α : Type} : Option α → ApiResult α
  | some row => .ok row
  | none => .error .internal

@[simp] theorem fetchOne_eq_ok {α : Type} {row : Option α} {a : α} :
    fetchOne row = .ok a ↔ row = some a := by
  cases row <;> simp [fetchOne]

/-- `checked_add` on 64-bit words, with overflow as an internal error. -/
def checkedAddOrInternal (left right : Int) : ApiResult Int :=
  if Fits 64 (left + right) then .ok (left + right) else .error .internal

theorem checkedAddOrInternal_eq_ok {left right n : Int} :
    checkedAddOrInternal left right = .ok n ↔ Fits 64 (left + right) ∧ left + right = n := by
  by_cases h : Fits 64 (left + right) <;> simp [checkedAddOrInternal, h]

/-- The identifier and the instant drawn for a new row. -/
structure Stamp where
  id : Uuid
  createdAt : OffsetDateTime

section Entries
variable (digest : List UInt8 → String)

/-- The entry that `append_quota` builds. -/
def quotaEntry (stamp : Stamp) (userId jobId : Uuid) (entryType : String)
    (delta before after : Int) (idempotencyKey prevHash : String) : ApiResult LedgerEntry := do
  let kind ← match entryType with
    | "consumer_deduction" => .ok .consumerDeduction
    | "node_reward" => .ok .nodeQuotaCredit
    | _ => .error .internal
  orInternal (LedgerEntry.new digest stamp.id userId (some jobId) idempotencyKey kind delta
    before after stamp.createdAt prevHash .empty)

/-- The entry that `append_contribution` builds. -/
def contributionEntry (stamp : Stamp) (userId jobId : Uuid) (delta before after : Int)
    (idempotencyKey prevHash : String) : ApiResult LedgerEntry :=
  orInternal (LedgerEntry.new digest stamp.id userId (some jobId) idempotencyKey
    .contributionCredit delta before after stamp.createdAt prevHash .empty)

/-- The entry that `append_reserve` builds. -/
def reserveEntry (stamp : Stamp) (jobId : Uuid) (delta before after : Int)
    (idempotencyKey prevHash : String) : ApiResult LedgerEntry :=
  orInternal (LedgerEntry.new digest stamp.id (.fromU128 1) (some jobId) idempotencyKey
    .reserveInflow delta before after stamp.createdAt prevHash .empty)

end Entries

section Append
variable (schema : Schema)

/-- The insert of a built entry, under the entry type it is written with. -/
def insertEntry (db : LedgerDb) (table : LedgerTable) (ledger : LedgerEntry)
    (entryType : String) (auditReference : Option String) : ApiResult LedgerDb := do
  let changes ← orInternal (insertLedger schema db table (storedValues ledger table entryType
    (ledgerMetadataJson ledger.metadata) auditReference) (some ledger.hash))
  return changes.foldl LedgerDb.apply db

def accountSpendable (db : LedgerDb) (userId : Uuid) : ApiResult Int := do
  return (← fetchOne (db.accounts.find userId)).spendableMicro

def appendQuota (db : LedgerDb) (stamp : Stamp) (userId jobId : Uuid) (entryType : String)
    (delta before after : Int) (idempotencyKey : String) : ApiResult (LedgerDb × String) := do
  let account ← fetchOne (db.accounts.find userId)
  let ledger ← quotaEntry schema.digest stamp userId jobId entryType delta before after
    idempotencyKey account.quotaLedgerHeadHash
  return (← insertEntry schema db .quotaLedger ledger entryType none, ledger.hash)

def appendContribution (db : LedgerDb) (stamp : Stamp) (userId jobId : Uuid)
    (delta before after : Int) (idempotencyKey : String) : ApiResult (LedgerDb × String) := do
  let account ← fetchOne (db.accounts.find userId)
  let ledger ← contributionEntry schema.digest stamp userId jobId delta before after
    idempotencyKey account.contributionLedgerHeadHash
  return (← insertEntry schema db .contributionLedger ledger "node_contribution" none,
    ledger.hash)

def appendReserve (db : LedgerDb) (stamp : Stamp) (jobId : Uuid)
    (delta before after : Int) (idempotencyKey : String) : ApiResult (LedgerDb × String) := do
  let ledger ← reserveEntry schema.digest stamp jobId delta before after idempotencyKey
    db.reserve.ledgerHeadHash
  return (← insertEntry schema db .reserveLedger ledger "settlement_inflow" none, ledger.hash)

end Append

/-- `format!("job:{}:…")`. -/
def jobKey (jobId : Uuid) (suffix : String) : String := "job:" ++ jobId.text ++ ":" ++ suffix

/-- The contribution points weighted in parts per million, rounded toward zero. -/
def weightedContribution (points weightPpm : Int) : Int := (points * weightPpm).tdiv 1000000

/-- The weighted points as the service computes them, through a 128-bit product. -/
def contributionMicro (points weightPpm : Int) : ApiResult Int := do
  let product ← orInternal (checkedI128 (points * weightPpm) "contribution")
  orInternal (i64TryFrom (product.tdiv 1000000) "contribution")

theorem contributionMicro_eq_ok {points weightPpm n : Int}
    (h : contributionMicro points weightPpm = .ok n) : n = weightedContribution points weightPpm := by
  simp only [contributionMicro, bind_eq_ok, orInternal_eq_ok, checkedI128_eq_ok,
    i64TryFrom_eq_ok] at h
  obtain ⟨_, ⟨-, rfl⟩, -, rfl⟩ := h
  rfl

theorem weightedContribution_bounds {points weightPpm : Int} (hp : 0 ≤ points)
    (hw : 0 ≤ weightPpm ∧ weightPpm ≤ 1000000) :
    0 ≤ weightedContribution points weightPpm ∧
      weightedContribution points weightPpm ≤ points := by
  have hprod : 0 ≤ points * weightPpm := mul_nonneg hp hw.1
  have hle : points * weightPpm ≤ points * 1000000 := mul_le_mul_of_nonneg_left hw.2 hp
  have hfloor := tdiv_mul_le_self hprod (d := 1000000) (by norm_num)
  refine ⟨tdiv_nonneg_of hprod (by norm_num), ?_⟩
  rw [weightedContribution]
  omega

theorem contributionMicro_ok {points weightPpm : Int} (hp : 0 ≤ points) (hfits : Fits 64 points)
    (hw : 0 ≤ weightPpm ∧ weightPpm ≤ 1000000) :
    contributionMicro points weightPpm = .ok (weightedContribution points weightPpm) := by
  obtain ⟨hlow, hhigh⟩ := weightedContribution_bounds hp hw
  have hprod : 0 ≤ points * weightPpm := mul_nonneg hp hw.1
  have hle : points * weightPpm ≤ points * 1000000 := mul_le_mul_of_nonneg_left hw.2 hp
  simp only [contributionMicro, bind_eq_ok, orInternal_eq_ok, checkedI128_eq_ok,
    i64TryFrom_eq_ok]
  refine ⟨_, ⟨?_, rfl⟩, fits_of_between fits_zero hfits hlow hhigh, rfl⟩
  rw [fits_64] at hfits
  rw [fits_128]
  omega

/-- The keys of a settlement are accepted by the ledger for every job. -/
theorem jobKey_accepted (jobId : Uuid) (suffix : String)
    (hsuffix : suffix.toList.all (Plain ·) = true) (hlength : suffix.toList.length ≤ 200) :
    isBlank (jobKey jobId suffix) = false ∧ (utf8 (jobKey jobId suffix)).length ≤ 255 ∧
      hasControl (jobKey jobId suffix) = false := by
  have hchars : (jobKey jobId suffix).toList =
      'j' :: 'o' :: 'b' :: ':' :: (jobId.text.toList ++ ':' :: suffix.toList) := by
    simp [jobKey]
  have hplain : ∀ c ∈ (jobKey jobId suffix).toList, Plain c := by
    rw [hchars]
    simp only [List.mem_cons, List.mem_append]
    rintro c (rfl | rfl | rfl | rfl | h | rfl | h)
    · decide
    · decide
    · decide
    · decide
    · exact jobId.plain_text c h
    · decide
    · exact of_decide_eq_true (List.all_eq_true.mp hsuffix c h)
  refine ⟨?_, ?_, hasControl_of_plain hplain⟩
  · rw [isBlank, hchars]
    rfl
  · rw [length_utf8_of_plain hplain, hchars]
    simp only [List.length_cons, List.length_append, jobId.length_text]
    omega

/-- What the next entry of a ledger is built from. -/
structure EntryContext where
  stamp : Stamp
  before : Int
  prevHash : String

/-- The ledger can take an entry of this amount. -/
structure EntryContext.Takes (context : EntryContext) (amount : Int) : Prop where
  before : 0 ≤ context.before
  after : 0 ≤ context.before + amount
  fits : Fits 64 (context.before + amount)
  prevHash : isSha256 context.prevHash = true

section Built
variable {digest : List UInt8 → String} {context : EntryContext} {amount : Int}

/-- An entry with an accepted key and without metadata is built whenever its kind
agrees with its sign and the ledger can take its amount. -/
theorem newEntry_ok (accountId : Uuid) (requestId : Option Uuid) (kind : LedgerKind)
    {key : String} (htakes : context.Takes amount)
    (hkey : isBlank key = false ∧ (utf8 key).length ≤ 255 ∧ hasControl key = false)
    (hamount : amount = 0 → kind = .contributionCredit)
    (hdirection : kind.expectsDebit = decide (amount < 0)) (hkind : kind ≠ .reserveRelease) :
    ∃ entry, LedgerEntry.new digest context.stamp.id accountId requestId key kind amount
      context.before (context.before + amount) context.stamp.createdAt context.prevHash
      .empty = .ok entry := by
  obtain ⟨hblank, hlength, hcontrol⟩ := hkey
  obtain ⟨entryType, htype⟩ : ∃ entryType, kind.entryType .empty = .ok entryType := by
    cases kind <;> first | exact ⟨_, rfl⟩ | exact absurd rfl hkind
  simp only [LedgerEntry.new, bind_eq_ok, LedgerEntry.validateFields_eq_ok,
    LedgerEntry.recomputeHash_eq_ok, LedgerEntry.canonicalBytes_eq_ok, exists_const]
  refine ⟨_, ⟨rfl, htakes.prevHash, hamount, hblank, hlength, hcontrol, hdirection,
    htakes.before, htakes.after, rfl, htakes.fits, by simp [Metadata.empty]⟩, _, ⟨_, ⟨trivial,
    entryType, htype, rfl⟩, rfl⟩, rfl⟩

variable {jobId userId : Uuid}

theorem consumerEntry_ok (htakes : context.Takes amount) (hdebit : amount < 0) :
    ∃ entry, quotaEntry digest context.stamp userId jobId "consumer_deduction" amount
      context.before (context.before + amount) (jobKey jobId "consumer") context.prevHash =
      .ok entry := by
  obtain ⟨entry, hentry⟩ := newEntry_ok userId (some jobId) .consumerDeduction htakes
    (jobKey_accepted jobId "consumer" (by decide) (by decide)) (by omega)
    (by simp [LedgerKind.expectsDebit, hdebit]) (by decide)
  exact ⟨entry, orInternal_eq_ok.mpr hentry⟩

theorem nodeEntry_ok (htakes : context.Takes amount) (hcredit : 0 < amount) :
    ∃ entry, quotaEntry digest context.stamp userId jobId "node_reward" amount
      context.before (context.before + amount) (jobKey jobId "node-quota") context.prevHash =
      .ok entry := by
  obtain ⟨entry, hentry⟩ := newEntry_ok userId (some jobId) .nodeQuotaCredit htakes
    (jobKey_accepted jobId "node-quota" (by decide) (by decide)) (by omega)
    (by simp [LedgerKind.expectsDebit, hcredit.le]) (by decide)
  exact ⟨entry, orInternal_eq_ok.mpr hentry⟩

theorem contributionEntry_ok (htakes : context.Takes amount) (hcredit : 0 ≤ amount) :
    ∃ entry, contributionEntry digest context.stamp userId jobId amount context.before
      (context.before + amount) (jobKey jobId "contribution") context.prevHash =
      .ok entry := by
  obtain ⟨entry, hentry⟩ := newEntry_ok userId (some jobId) .contributionCredit htakes
    (jobKey_accepted jobId "contribution" (by decide) (by decide)) (fun _ => rfl)
    (by simp [LedgerKind.expectsDebit, hcredit]) (by decide)
  exact ⟨entry, orInternal_eq_ok.mpr hentry⟩

theorem reserveEntry_ok (htakes : context.Takes amount) (hcredit : 0 < amount) :
    ∃ entry, reserveEntry digest context.stamp jobId amount context.before
      (context.before + amount) (jobKey jobId "reserve") context.prevHash = .ok entry := by
  obtain ⟨entry, hentry⟩ := newEntry_ok (.fromU128 1) (some jobId) .reserveInflow htakes
    (jobKey_accepted jobId "reserve" (by decide) (by decide)) (by omega)
    (by simp [LedgerKind.expectsDebit, hcredit.le]) (by decide)
  exact ⟨entry, orInternal_eq_ok.mpr hentry⟩

end Built

/-- The four entries that a settlement builds, in the order of the service. -/
def SettlementEntriesBuilt (digest : List UInt8 → String) (jobId consumer node : Uuid)
    (s : Settlement) (contribution : Int)
    (paid credited contributed kept : EntryContext) : Prop :=
  (∃ entry, quotaEntry digest paid.stamp consumer jobId "consumer_deduction"
    (-s.userDeduction.asI64) paid.before (paid.before + -s.userDeduction.asI64)
    (jobKey jobId "consumer") paid.prevHash = .ok entry) ∧
  (∃ entry, quotaEntry digest credited.stamp node jobId "node_reward"
    s.nodeSpendableQuota.asI64 credited.before
    (credited.before + s.nodeSpendableQuota.asI64) (jobKey jobId "node-quota")
    credited.prevHash = .ok entry) ∧
  (∃ entry, contributionEntry digest contributed.stamp node jobId contribution
    contributed.before (contributed.before + contribution) (jobKey jobId "contribution")
    contributed.prevHash = .ok entry) ∧
  (∃ entry, reserveEntry digest kept.stamp jobId s.reserveInflow.asI64 kept.before
    (kept.before + s.reserveInflow.asI64) (jobKey jobId "reserve") kept.prevHash = .ok entry)

/-- A reservation covers every settlement of its quote: at each tier and trust
class the settlement exists, takes no more than was reserved, splits it without
remainder into two positive shares, and its four entries are built whenever the
consumer holds the reservation and no credited balance overflows. -/
theorem reservation_covers_settlement {profile : ServerReferenceBillingProfile}
    {input output : Int} {reservation : MicroQuota}
    (h : maximumReservationMicro profile input output = .ok reservation) :
    ∃ quote, maximumReservationQuote profile input output = .ok quote ∧
      ∀ tier trust, ∃ s, Settlement.calculate quote.baseCost tier trust = .ok s ∧
        s.userDeduction.asI64 ≤ reservation.asI64 ∧
        1 ≤ s.nodeSpendableQuota.asI64 ∧ 1 ≤ s.reserveInflow.asI64 ∧
        s.nodeSpendableQuota.asI64 + s.reserveInflow.asI64 = s.userDeduction.asI64 ∧
        ∀ weightPpm, 0 ≤ weightPpm → weightPpm ≤ 1000000 → ∃ contribution,
          contributionMicro s.nodeContributionPoints.asI64 weightPpm = .ok contribution ∧
          0 ≤ contribution ∧ contribution ≤ s.nodeContributionPoints.asI64 ∧
          ∀ (digest : List UInt8 → String) (jobId consumer node : Uuid)
            (paid credited contributed kept : EntryContext),
            reservation.asI64 ≤ paid.before → Fits 64 paid.before →
            isSha256 paid.prevHash = true →
            credited.Takes s.nodeSpendableQuota.asI64 → contributed.Takes contribution →
            kept.Takes s.reserveInflow.asI64 →
            SettlementEntriesBuilt digest jobId consumer node s contribution paid credited
              contributed kept := by
  obtain ⟨quote, top, hquote, htop, rfl⟩ := maximumReservationMicro_eq_ok.mp h
  obtain ⟨hbase, hfits⟩ := maximumReservationQuote_baseCost hquote
  refine ⟨quote, hquote, fun tier trust => ?_⟩
  obtain ⟨s, hs⟩ : ∃ s, Settlement.calculate quote.baseCost tier trust = .ok s :=
    Settlement.calculate_ok_of_top hfits htop
  have hle := Settlement.userDeduction_le_top htop hs
  obtain ⟨hnode, hreserve⟩ := Settlement.shares_pos hbase hs
  obtain ⟨-, -, -, hsum, -, hpoints, -, -⟩ := Settlement.calculate_spec hs
  have hd : 0 < s.userDeduction.asI64 := by omega
  refine ⟨s, hs, hle, hnode, hreserve, hsum, fun weightPpm hlow hhigh => ?_⟩
  have hcredit := weightedContribution_bounds s.nodeContributionPoints.nonneg ⟨hlow, hhigh⟩
  refine ⟨_, contributionMicro_ok s.nodeContributionPoints.nonneg hpoints ⟨hlow, hhigh⟩,
    hcredit.1, hcredit.2, ?_⟩
  intro digest jobId consumer node paid credited contributed kept hcover hpaid hprev hcredited
    hcontributed hkept
  have htakes : paid.Takes (-s.userDeduction.asI64) :=
    ⟨by omega, by omega, fits_of_between fits_zero hpaid (by omega) (by omega), hprev⟩
  exact ⟨consumerEntry_ok htakes (by omega), nodeEntry_ok hcredited (by omega),
    contributionEntry_ok hcontributed hcredit.1, reserveEntry_ok hkept (by omega)⟩

section Sample

/-- The profile of the service's own tests. -/
def sampleProfile : ServerReferenceBillingProfile where
  maximumInputTokens := 4096
  maximumOutputTokens := 1024
  fixedGpuTimeUs := 100000
  gpuTimeUsPer1kTokens := 2000000
  referenceVramMib := 8192
  tokenRateMicroPer1k := 1000000
  gpuRateMicroPerSecond := 2000
  vramRateMicroPerGibSecond := 3000

theorem reservation_covers_settlement_sample :
    maximumReservationMicro sampleProfile 40 10 = .ok ⟨82800, by decide⟩ ∧
      ∃ quote, maximumReservationQuote sampleProfile 40 10 = .ok quote ∧
        ∃ s, Settlement.calculate quote.baseCost .low .unverified = .ok s ∧
          s.userDeduction.asI64 ≤ 82800 := by
  have hreserved : maximumReservationMicro sampleProfile 40 10 = .ok ⟨82800, by decide⟩ := rfl
  obtain ⟨quote, hquote, settles⟩ := reservation_covers_settlement hreserved
  obtain ⟨s, hs, hle, -⟩ := settles .low .unverified
  exact ⟨hreserved, quote, hquote, s, hs, hle⟩

end Sample

end MindOne.Coordinator
