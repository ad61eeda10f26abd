import MindOne.Values
import MindOne.Accounting.Fixed

/-!
# Ledger entries and their canonical bytes

An entry is hashed as a sequence of length-prefixed fields, with the creation
instant reduced to the microseconds that the database keeps. The digest of a
byte string is a parameter: nothing here depends on how it is computed.
-/

namespace MindOne.Accounting

open CheckedArithmetic

def genesisHash : String :=
  "0000000000000000000000000000000000000000000000000000000000000000"

def ledgerHashVersion : Int := 2

def ledgerHashDomain : String := "mindone-ledger"

def postgresEpochUnixSeconds : Int := 946684800

/-- Key-value pairs in strictly increasing byte order of their keys. -/
structure Metadata where
  entries : List (String × String)
  sorted : entries.Pairwise fun a b => byteRank a.1 < byteRank b.1

namespace Metadata

def empty : Metadata := ⟨[], .nil⟩

def singleton (key value : String) : Metadata := ⟨[(key, value)], List.pairwise_singleton _ _⟩

def get (self : Metadata) (key : String) : Option String := self.entries.lookup key

theorem eq_of_entries {a b : Metadata} (h : a.entries = b.entries) : a = b := by
  cases a
  cases b
  cases h
  rfl

end Metadata

inductive LedgerKind where
  | consumerDeduction
  | nodeQuotaCredit
  | contributionCredit
  | reserveInflow
  | reserveRelease
  | bootstrapGrant
  | operatorGrant
  deriving DecidableEq, Repr

namespace LedgerKind

def expectsDebit : LedgerKind → Bool
  | .consumerDeduction | .reserveRelease => true
  | _ => false

def scope : LedgerKind → String
  | .consumerDeduction | .nodeQuotaCredit | .bootstrapGrant | .operatorGrant => "quota"
  | .contributionCredit => "contribution"
  | .reserveInflow | .reserveRelease => "reserve"

/-- The purposes a reserve release may state. -/
def releasePurposes : List String := ["verification", "retry", "bandwidth", "peak_capacity"]

/-- A release takes its entry type from the purpose in its metadata. -/
def entryType (self : LedgerKind) (metadata : Metadata) : Result String :=
  match self with
  | .consumerDeduction => .ok "consumer_deduction"
  | .nodeQuotaCredit => .ok "node_reward"
  | .contributionCredit => .ok "node_contribution"
  | .reserveInflow => .ok "settlement_inflow"
  | .bootstrapGrant => .ok "bootstrap_grant"
  | .operatorGrant => .ok "operator_grant"
  | .reserveRelease =>
      match (metadata.get "purpose").filter (· ∈ releasePurposes) with
      | some purpose => .ok purpose
      | none => .error (.invalidLedger "准备金释放账本缺少有效的 metadata.purpose")

def debugName : LedgerKind → String
  | .consumerDeduction => "ConsumerDeduction"
  | .nodeQuotaCredit => "NodeQuotaCredit"
  | .contributionCredit => "ContributionCredit"
  | .reserveInflow => "ReserveInflow"
  | .reserveRelease => "ReserveRelease"
  | .bootstrapGrant => "BootstrapGrant"
  | .operatorGrant => "OperatorGrant"

theorem entryType_release {metadata : Metadata} {purpose : String} :
    entryType .reserveRelease metadata = .ok purpose ↔
      metadata.get "purpose" = some purpose ∧ purpose ∈ releasePurposes := by
  simp only [entryType]
  cases h : (metadata.get "purpose").filter (· ∈ releasePurposes) with
  | none =>
      simp only [Option.filter_eq_none_iff, decide_eq_true_eq] at h
      simp only [reduceCtorEq, false_iff, not_and]
      exact h purpose
  | some stated =>
      simp only [Option.filter_eq_some_iff, decide_eq_true_eq] at h
      simp only [Except.ok.injEq]
      constructor
      · rintro rfl
        exact h
      · rintro ⟨hget, -⟩
        exact Option.some.inj (h.1.symm.trans hget)

/-- The kind that a stored entry type stands for. -/
def ofEntryType (entryType : String) : Option LedgerKind :=
  [("consumer_deduction", .consumerDeduction), ("node_reward", .nodeQuotaCredit),
    ("node_contribution", .contributionCredit), ("settlement_inflow", .reserveInflow),
    ("bootstrap_grant", .bootstrapGrant), ("operator_grant", .operatorGrant),
    ("verification", .reserveRelease), ("retry", .reserveRelease),
    ("bandwidth", .reserveRelease), ("peak_capacity", LedgerKind.reserveRelease)].lookup
    entryType

/-- The entry type alone determines the kind. -/
theorem ofEntryType_entryType {self : LedgerKind} {metadata : Metadata} {kind : String}
    (h : self.entryType metadata = .ok kind) : ofEntryType kind = some self := by
  cases self with
  | reserveRelease =>
      have hpurpose := (entryType_release.mp h).2
      simp only [releasePurposes, List.mem_cons, List.not_mem_nil, or_false] at hpurpose
      rcases hpurpose with rfl | rfl | rfl | rfl <;> decide
  | _ => cases h; decide

theorem eq_of_entryType {a b : LedgerKind} {m n : Metadata} {kind : String}
    (ha : a.entryType m = .ok kind) (hb : b.entryType n = .ok kind) : a = b :=
  Option.some.inj ((ofEntryType_entryType ha).symm.trans (ofEntryType_entryType hb))

end LedgerKind

def isSha256 (value : String) : Bool :=
  (utf8 value).length = 64 &&
    (utf8 value).all fun byte => (48 ≤ byte && byte ≤ 57) || (97 ≤ byte && byte ≤ 102)

structure LedgerEntry where
  hashVersion : Int
  id : Uuid
  accountId : Uuid
  requestId : Option Uuid
  idempotencyKey : String
  kind : LedgerKind
  amountMicro : Int
  balanceBeforeMicro : Int
  balanceAfterMicro : Int
  createdAt : OffsetDateTime
  previousHash : String
  metadata : Metadata
  hash : String

/-- Append one field to the bytes to be hashed. -/
def appendCanonicalField (output : List UInt8) (value : String) : List UInt8 :=
  output ++ utf8 (toString (utf8 value).length) ++ [58] ++ utf8 value

namespace LedgerEntry

/-- Whole microseconds since 2000, truncated toward zero, counted from 1970. -/
def createdAtUnixMicros (self : LedgerEntry) : Int :=
  (self.createdAt.unixTimestampNanos - postgresEpochUnixSeconds * 1000000000).tdiv 1000 +
    postgresEpochUnixSeconds * 1000000

def unsupportedVersion (self : LedgerEntry) : AccountingError :=
  .invalidLedger ("不支持的账本哈希版本：" ++ toString self.hashVersion)

/-- The bytes that `recomputeHash` digests. -/
def canonicalBytes (self : LedgerEntry) : Result (List UInt8) := do
  rejectIf (self.hashVersion ≠ ledgerHashVersion) self.unsupportedVersion
  rejectIf (¬ Fits 64 self.createdAtUnixMicros) (.invalidLedger "账本时间戳超出范围")
  let entryType ← self.kind.entryType self.metadata
  let bytes := [
    ledgerHashDomain,
    toString self.hashVersion,
    self.kind.scope,
    self.id.text,
    self.accountId.text,
    (self.requestId.map Uuid.text).getD "",
    self.idempotencyKey,
    entryType,
    toString self.amountMicro,
    toString self.balanceBeforeMicro,
    toString self.balanceAfterMicro,
    toString self.createdAtUnixMicros,
    self.previousHash,
    toString self.metadata.entries.length].foldl appendCanonicalField []
  return self.metadata.entries.foldl
    (fun bytes pair => appendCanonicalField (appendCanonicalField bytes pair.1) pair.2) bytes

def validateFields (self : LedgerEntry) : Result Unit := do
  rejectIf (self.hashVersion ≠ ledgerHashVersion) self.unsupportedVersion
  rejectIf (isSha256 self.previousHash = false)
    (.invalidLedger "previous_hash 必须是 64 位小写 SHA-256")
  rejectIf (self.amountMicro = 0 ∧ self.kind ≠ .contributionCredit)
    (.invalidLedger "账本金额不得为零")
  rejectIf (isBlank self.idempotencyKey = true ∨ (utf8 self.idempotencyKey).length > 255 ∨
      hasControl self.idempotencyKey = true)
    (.invalidLedger "idempotency_key 为空或无效")
  rejectIf (self.kind.expectsDebit ≠ decide (self.amountMicro < 0))
    (.invalidLedger ("账本类型 " ++ self.kind.debugName ++ " 的借贷方向错误"))
  rejectIf (self.balanceBeforeMicro < 0 ∨ self.balanceAfterMicro < 0)
    (.invalidLedger "账本前后余额不得为负")
  let expectedAfter ← checkedAdd self.balanceBeforeMicro self.amountMicro "账本余额计算"
  rejectIf (expectedAfter ≠ self.balanceAfterMicro)
    (.invalidLedger "余额变化与账本金额不一致")
  rejectIf (self.metadata.entries.any fun pair =>
      pair.1.isEmpty || (utf8 pair.1).length > 128 || hasControl pair.1 ||
        (utf8 pair.2).length > 2048 || hasControl pair.2)
    (.invalidLedger "metadata 键值为空或超过长度限制")

section Digest
variable (digest : List UInt8 → String)

def recomputeHash (self : LedgerEntry) : Result String := do
  return digest (← self.canonicalBytes)

def new (id accountId : Uuid) (requestId : Option Uuid) (idempotencyKey : String)
    (kind : LedgerKind) (amountMicro balanceBeforeMicro balanceAfterMicro : Int)
    (createdAt : OffsetDateTime) (previousHash : String) (metadata : Metadata) :
    Result LedgerEntry := do
  let entry : LedgerEntry := {
    hashVersion := ledgerHashVersion
    id, accountId, requestId, idempotencyKey, kind, amountMicro
    balanceBeforeMicro, balanceAfterMicro, createdAt, previousHash, metadata
    hash := "" }
  entry.validateFields
  let hash ← entry.recomputeHash digest
  return { entry with hash }

def validate (self : LedgerEntry) : Result Unit := do
  self.validateFields
  let expected ← self.recomputeHash digest
  rejectIf (self.hash ≠ expected) (.invalidLedger "记录哈希与规范化内容不一致")

end Digest

end LedgerEntry

/-- The loop of `validateChain` with its two accumulators. -/
def validateChainFrom (digest : List UInt8 → String) :
    String → Option OffsetDateTime → List LedgerEntry → Result Unit
  | _, _, [] => .ok ()
  | expectedPrevious, previousTimestamp, entry :: rest => do
      entry.validate digest
      rejectIf (entry.previousHash ≠ expectedPrevious)
        (.invalidLedger ("记录 " ++ entry.id.text ++ " 未连接到前一条哈希"))
      rejectIf (∃ timestamp ∈ previousTimestamp,
          entry.createdAt.unixTimestampNanos < timestamp.unixTimestampNanos)
        (.invalidLedger "账本时间戳顺序倒退")
      validateChainFrom digest entry.hash (some entry.createdAt) rest

def validateChain (digest : List UInt8 → String) (entries : List LedgerEntry) : Result Unit :=
  validateChainFrom digest genesisHash none entries

namespace LedgerEntry
variable {self : LedgerEntry}

/-- What `validateFields` accepts. -/
structure WellFormed (entry : LedgerEntry) : Prop where
  hashVersion : entry.hashVersion = ledgerHashVersion
  previousHash : isSha256 entry.previousHash = true
  amount : entry.amountMicro = 0 → entry.kind = .contributionCredit
  keyNotBlank : isBlank entry.idempotencyKey = false
  keyLength : (utf8 entry.idempotencyKey).length ≤ 255
  keyPrintable : hasControl entry.idempotencyKey = false
  direction : entry.kind.expectsDebit = decide (entry.amountMicro < 0)
  before : 0 ≤ entry.balanceBeforeMicro
  after : 0 ≤ entry.balanceAfterMicro
  balance : entry.balanceBeforeMicro + entry.amountMicro = entry.balanceAfterMicro
  fits : Fits 64 (entry.balanceBeforeMicro + entry.amountMicro)
  metadataBounded : ∀ pair ∈ entry.metadata.entries, pair.1.isEmpty = false ∧
    (utf8 pair.1).length ≤ 128 ∧ hasControl pair.1 = false ∧
    (utf8 pair.2).length ≤ 2048 ∧ hasControl pair.2 = false

/-- The hash takes no part in the checks of the other fields. -/
theorem WellFormed.withHash (h : self.WellFormed) (hash : String) :
    { self with hash }.WellFormed :=
  { h with }

theorem validateFields_eq_ok {u : Unit} :
    self.validateFields = .ok u ↔ self.WellFormed := by
  simp only [validateFields, bind_eq_ok, rejectIf_eq_ok, exists_const, checkedAdd_eq_ok,
    not_or, not_and, not_not, not_lt, Bool.not_eq_true, Bool.not_eq_false, List.any_eq_false,
    Bool.or_eq_false_iff, decide_eq_false_iff_not, gt_iff_lt]
  constructor
  · rintro ⟨version, previous, amount, ⟨blank, length, control⟩, direction, ⟨before, after⟩,
      _, ⟨fits, rfl⟩, balance, pairs⟩
    exact ⟨version, previous, amount, blank, length, control, direction, before, after,
      balance, fits, fun pair h => by simpa [and_assoc] using pairs pair h⟩
  · rintro ⟨version, previous, amount, blank, length, control, direction, before, after,
      balance, fits, pairs⟩
    exact ⟨version, previous, amount, ⟨blank, length, control⟩, direction, ⟨before, after⟩,
      _, ⟨fits, rfl⟩, balance, fun pair h => by simpa [and_assoc] using pairs pair h⟩

/-- Every representable instant has a 64-bit count of microseconds. -/
theorem fits_createdAtUnixMicros (self : LedgerEntry) :
    Fits 64 self.createdAtUnixMicros := by
  have hrange := self.createdAt.inRange
  rw [fits_64]
  simp only [createdAtUnixMicros, postgresEpochUnixSeconds, Int.tdiv_eq_ediv,
    show Int.sign 1000 = 1 from rfl]
  split <;> omega

/-- The texts of the hashed fields, in their order. -/
def canonicalTexts (self : LedgerEntry) (entryType : String) : List String :=
  [ledgerHashDomain, toString self.hashVersion, self.kind.scope, self.id.text,
    self.accountId.text, (self.requestId.map Uuid.text).getD "", self.idempotencyKey,
    entryType, toString self.amountMicro, toString self.balanceBeforeMicro,
    toString self.balanceAfterMicro, toString self.createdAtUnixMicros, self.previousHash,
    toString self.metadata.entries.length] ++
  self.metadata.entries.flatMap fun pair => [pair.1, pair.2]

end LedgerEntry

theorem foldl_appendCanonicalField (texts : List String) (output : List UInt8) :
    texts.foldl appendCanonicalField output =
      output ++ canonicalFormat.fields (texts.map utf8) := by
  induction texts generalizing output with
  | nil => simp
  | cons text texts ih =>
      rw [List.foldl_cons, ih]
      simp [appendCanonicalField, FieldFraming.Format.field, canonicalFormat]

theorem foldl_pairs (entries : List (String × String)) (output : List UInt8) :
    entries.foldl
      (fun bytes pair => appendCanonicalField (appendCanonicalField bytes pair.1) pair.2)
      output = (entries.flatMap fun pair => [pair.1, pair.2]).foldl appendCanonicalField
        output := by
  induction entries generalizing output with
  | nil => rfl
  | cons pair entries ih => exact ih _

/-- The hashed bytes are the framed texts of the fields. -/
theorem LedgerEntry.canonicalBytes_eq_ok {self : LedgerEntry} {bytes : List UInt8} :
    self.canonicalBytes = .ok bytes ↔ self.hashVersion = ledgerHashVersion ∧
      ∃ entryType, self.kind.entryType self.metadata = .ok entryType ∧
        bytes = canonicalFormat.fields ((self.canonicalTexts entryType).map utf8) := by
  have hfits := self.fits_createdAtUnixMicros
  simp only [canonicalBytes, bind_eq_ok, rejectIf_eq_ok, exists_const, not_not, hfits,
    true_and, foldl_pairs]
  refine and_congr_right fun _ => exists_congr fun entryType => and_congr_right fun _ => ?_
  rw [← List.foldl_append, foldl_appendCanonicalField, List.nil_append, canonicalTexts]
  constructor
  · intro h
    exact (Except.ok.inj h).symm
  · intro h
    rw [h]
    rfl

namespace LedgerEntry
variable {self : LedgerEntry}

variable {digest : List UInt8 → String}

theorem recomputeHash_eq_ok {hash : String} :
    self.recomputeHash digest = .ok hash ↔
      ∃ bytes, self.canonicalBytes = .ok bytes ∧ hash = digest bytes := by
  simp only [recomputeHash, bind_eq_ok]
  refine exists_congr fun bytes => and_congr_right fun _ => ?_
  exact ⟨fun h => (Except.ok.inj h).symm, fun h => h ▸ rfl⟩

theorem validate_eq_ok {u : Unit} :
    self.validate digest = .ok u ↔
      self.WellFormed ∧ ∃ bytes, self.canonicalBytes = .ok bytes ∧ self.hash = digest bytes := by
  simp only [validate, bind_eq_ok, exists_const, validateFields_eq_ok, rejectIf_eq_ok,
    recomputeHash_eq_ok, not_not]
  refine and_congr_right fun _ => ?_
  constructor
  · rintro ⟨_, ⟨bytes, hbytes, rfl⟩, hhash⟩
    exact ⟨bytes, hbytes, hhash⟩
  · rintro ⟨bytes, hbytes, hhash⟩
    exact ⟨_, ⟨bytes, hbytes, rfl⟩, hhash⟩

/-- A new entry is the valid entry with the given fields. -/
theorem new_eq_ok {id accountId : Uuid} {requestId : Option Uuid} {idempotencyKey : String}
    {kind : LedgerKind} {amountMicro balanceBeforeMicro balanceAfterMicro : Int}
    {createdAt : OffsetDateTime} {previousHash : String} {metadata : Metadata} :
    LedgerEntry.new digest id accountId requestId idempotencyKey kind amountMicro
        balanceBeforeMicro balanceAfterMicro createdAt previousHash metadata = .ok self ↔
      self.validate digest = .ok () ∧ self =
        { hashVersion := ledgerHashVersion, id, accountId, requestId, idempotencyKey, kind,
          amountMicro, balanceBeforeMicro, balanceAfterMicro, createdAt, previousHash,
          metadata, hash := self.hash } := by
  simp only [new, bind_eq_ok, validateFields_eq_ok, recomputeHash_eq_ok, exists_const,
    validate_eq_ok]
  constructor
  · rintro ⟨fields, hash, ⟨bytes, hbytes, rfl⟩, hself⟩
    cases hself
    exact ⟨⟨fields.withHash _, bytes, hbytes, rfl⟩, rfl⟩
  · rintro ⟨⟨fields, bytes, hbytes, hhash⟩, hself⟩
    rw [hself] at fields hbytes
    refine ⟨fields.withHash "", _, ⟨bytes, hbytes, rfl⟩, ?_⟩
    rw [← hhash]
    exact congrArg Except.ok hself.symm

end LedgerEntry

end MindOne.Accounting
