import MindOne.Accounting.TamperEvidence
import MindOne.Database.LedgerHash

/-!
# What a client recomputes of a history row

A history row carries the fields of a ledger entry and its hash. The client
rebuilds the entry and hashes it again. The hash covers an entry type that is
derived from the kind and the metadata, not the one the row states; for most
kinds the two can only be the same.
-/

namespace MindOne.Accounting

/-- The message of an error. -/
def AccountingError.text : AccountingError → String
  | .negativeAmount field => "数值必须为非负整数：" ++ field
  | .overflow operation => "整数运算溢出：" ++ operation
  | .insufficientBalance required available =>
      "余额不足：需要 " ++ toString required ++ " microquota，当前 " ++ toString available ++
        " microquota"
  | .invalidLedger message => "账本记录无效：" ++ message
  | .invalidPolicy message => "节点策略无效：" ++ message
  | .invalidReserveRelease message => "准备金释放无效：" ++ message
  | .invalidBilling message => "物理计费参数无效：" ++ message

end MindOne.Accounting

namespace MindOne.Quota

open CheckedArithmetic Accounting

inductive LedgerNamespace where
  | quota | contribution | reserve
  deriving DecidableEq, Repr

inductive LedgerRecomputationStatus where
  | canonicalV2Recomputable | legacyV1Unverifiable
  deriving DecidableEq, Repr

structure LedgerEntryResponse where
  ledger : LedgerNamespace
  accountId : Uuid
  id : Uuid
  requestId : Option Uuid
  receiptId : Option Uuid
  idempotencyKey : String
  entryType : String
  deltaMicro : Int
  balanceBeforeMicro : Int
  balanceAfterMicro : Int
  createdAt : OffsetDateTime
  prevHash : String
  hashVersion : Int
  metadata : Metadata
  recomputationStatus : LedgerRecomputationStatus
  entryHash : String

inductive LocalLedgerVerification where
  | canonicalV2Verified | legacyV1Unverifiable
  deriving DecidableEq, Repr

/-- `CliError::General`. -/
structure GeneralError where
  message : String
  deriving DecidableEq, Repr

/-- The scopes and entry types that the client knows, with their kinds. -/
def kindTable : List ((LedgerNamespace × String) × LedgerKind) :=
  [((.quota, "consumer_deduction"), .consumerDeduction),
    ((.quota, "node_reward"), .nodeQuotaCredit),
    ((.quota, "bootstrap_grant"), .bootstrapGrant),
    ((.quota, "operator_grant"), .operatorGrant),
    ((.contribution, "node_contribution"), .contributionCredit),
    ((.reserve, "settlement_inflow"), .reserveInflow),
    ((.reserve, "verification"), .reserveRelease), ((.reserve, "retry"), .reserveRelease),
    ((.reserve, "bandwidth"), .reserveRelease), ((.reserve, "peak_capacity"), .reserveRelease)]

def ledgerKind (entry : LedgerEntryResponse) : Except GeneralError LedgerKind :=
  match kindTable.lookup (entry.ledger, entry.entryType) with
  | some kind => .ok kind
  | none => .error ⟨"账本记录 " ++ entry.id.text ++
      " 的 scope 与 entry_type 组合不受 canonical v2 支持"⟩

/-- The entry that the client rebuilds from a row. -/
def LedgerEntryResponse.canonical (entry : LedgerEntryResponse) (kind : LedgerKind) :
    LedgerEntry where
  hashVersion := entry.hashVersion
  id := entry.id
  accountId := entry.accountId
  requestId := entry.requestId
  idempotencyKey := entry.idempotencyKey
  kind
  amountMicro := entry.deltaMicro
  balanceBeforeMicro := entry.balanceBeforeMicro
  balanceAfterMicro := entry.balanceAfterMicro
  createdAt := entry.createdAt
  previousHash := entry.prevHash
  metadata := entry.metadata
  hash := entry.entryHash

/-- The recomputation failed. -/
def recomputationError (entry : LedgerEntryResponse) (error : AccountingError) : GeneralError :=
  ⟨"账本记录 " ++ entry.id.text ++ " 本地重算失败：" ++ error.text⟩

def verifyHistoryEntry (digest : List UInt8 → String) (entry : LedgerEntryResponse) :
    Except GeneralError LocalLedgerVerification :=
  match entry.recomputationStatus with
  | .legacyV1Unverifiable => do
      rejectIf (entry.hashVersion ≠ 1 ∨ entry.metadata.entries.isEmpty = false)
        ⟨"账本记录 " ++ entry.id.text ++ " 的 legacy v1 标记与版本或 metadata 不一致"⟩
      return .legacyV1Unverifiable
  | .canonicalV2Recomputable => do
      rejectIf (entry.hashVersion ≠ ledgerHashVersion)
        ⟨"账本记录 " ++ entry.id.text ++ " 声称可按 canonical v2 重算，但 hash_version=" ++
          toString entry.hashVersion⟩
      let kind ← ledgerKind entry
      ((entry.canonical kind).validate digest).mapError (recomputationError entry)
      return .canonicalV2Verified

/-- The two rows agree on every field that the hash is documented to cover. -/
structure LedgerEntryResponse.AgreesOnAudited (a b : LedgerEntryResponse) : Prop where
  ledger : a.ledger = b.ledger
  accountId : a.accountId = b.accountId
  id : a.id = b.id
  requestId : a.requestId = b.requestId
  idempotencyKey : a.idempotencyKey = b.idempotencyKey
  entryType : a.entryType = b.entryType
  deltaMicro : a.deltaMicro = b.deltaMicro
  balanceBeforeMicro : a.balanceBeforeMicro = b.balanceBeforeMicro
  balanceAfterMicro : a.balanceAfterMicro = b.balanceAfterMicro
  createdAt : ∀ kind, (a.canonical kind).createdAtUnixMicros =
    (b.canonical kind).createdAtUnixMicros
  prevHash : a.prevHash = b.prevHash
  metadata : a.metadata = b.metadata

/-- The row stands for a release of the reserve. -/
def LedgerEntryResponse.IsRelease (entry : LedgerEntryResponse) : Prop :=
  entry.ledger = .reserve ∧ entry.entryType ∈ LedgerKind.releasePurposes

instance (entry : LedgerEntryResponse) : Decidable entry.IsRelease :=
  inferInstanceAs (Decidable (_ ∧ _))

section Kinds
variable {entry a b : LedgerEntryResponse} {kind : LedgerKind}

theorem ledgerKind_eq_ok :
    ledgerKind entry = .ok kind ↔
      kindTable.lookup (entry.ledger, entry.entryType) = some kind := by
  rw [ledgerKind]
  cases kindTable.lookup (entry.ledger, entry.entryType) <;> simp

theorem mem_kindTable (h : ledgerKind entry = .ok kind) :
    ((entry.ledger, entry.entryType), kind) ∈ kindTable := by
  have hlookup := ledgerKind_eq_ok.mp h
  obtain ⟨front, back, htable, -⟩ := List.lookup_eq_some_iff.mp hlookup
  rw [htable]
  simp

/-- The scope of a namespace in the hashed bytes. -/
def LedgerNamespace.text : LedgerNamespace → String
  | .quota => "quota"
  | .contribution => "contribution"
  | .reserve => "reserve"

theorem LedgerNamespace.text_injective : Function.Injective LedgerNamespace.text := by
  intro a b h
  cases a <;> cases b <;> first | rfl | exact absurd h (by decide)

theorem kindTable_scope :
    ∀ row ∈ kindTable, row.2.scope = row.1.1.text := by
  decide

theorem kindTable_release :
    ∀ row ∈ kindTable, row.2 = .reserveRelease ↔
      row.1.1 = .reserve ∧ row.1.2 ∈ LedgerKind.releasePurposes := by
  decide

theorem kindTable_entryType :
    ∀ row ∈ kindTable, row.2 ≠ .reserveRelease →
      ∀ metadata, row.2.entryType metadata = .ok row.1.2 := by
  intro row hrow hkind metadata
  simp only [kindTable, List.mem_cons, List.not_mem_nil, or_false] at hrow
  rcases hrow with rfl | rfl | rfl | rfl | rfl | rfl | rfl | rfl | rfl | rfl <;>
    first | rfl | exact absurd rfl hkind

end Kinds

section Binding
variable {digest : List UInt8 → String} {a b entry : LedgerEntryResponse} {kind : LedgerKind}

/-- A row is verified when the entry rebuilt from it is valid. -/
theorem verifyHistoryEntry_eq_ok :
    verifyHistoryEntry digest entry = .ok .canonicalV2Verified ↔
      entry.recomputationStatus = .canonicalV2Recomputable ∧
      ∃ kind, ledgerKind entry = .ok kind ∧ (entry.canonical kind).validate digest = .ok () := by
  cases hstatus : entry.recomputationStatus with
  | legacyV1Unverifiable =>
      simp only [verifyHistoryEntry, hstatus, bind_eq_ok, reduceCtorEq, false_and, iff_false]
      rintro ⟨_, -, h⟩
      cases h
  | canonicalV2Recomputable =>
      simp only [verifyHistoryEntry, hstatus, bind_eq_ok, rejectIf_eq_ok, exists_const,
        mapError_eq_ok, not_not, true_and]
      constructor
      · rintro ⟨-, kind, hkind, _, hvalid, -⟩
        exact ⟨kind, hkind, hvalid⟩
      · rintro ⟨kind, hkind, hvalid⟩
        exact ⟨(LedgerEntry.validate_eq_ok.mp hvalid).1.hashVersion, kind, hkind, (), hvalid, rfl⟩

/-- A verified release also verifies under any other purpose of a release. -/
theorem IsRelease.restated {purpose : String} (release : entry.IsRelease)
    (h : verifyHistoryEntry digest entry = .ok .canonicalV2Verified)
    (hpurpose : purpose ∈ LedgerKind.releasePurposes) :
    verifyHistoryEntry digest { entry with entryType := purpose } =
      .ok .canonicalV2Verified := by
  obtain ⟨hstatus, kind, hkind, hvalid⟩ := verifyHistoryEntry_eq_ok.mp h
  have hrelease : kind = .reserveRelease :=
    (kindTable_release _ (mem_kindTable hkind)).mpr release
  refine verifyHistoryEntry_eq_ok.mpr ⟨hstatus, kind, ledgerKind_eq_ok.mpr ?_, hvalid⟩
  rw [hrelease, release.1]
  simp only [LedgerKind.releasePurposes, List.mem_cons, List.not_mem_nil, or_false] at hpurpose
  rcases hpurpose with rfl | rfl | rfl | rfl <;> rfl

theorem exists_other_purpose (purpose : String) :
    ∃ other ∈ LedgerKind.releasePurposes, other ≠ purpose := by
  by_cases h : purpose = "retry"
  · exact ⟨"verification", by decide, by rw [h]; decide⟩
  · exact ⟨"retry", by decide, Ne.symm h⟩

/-- Under a digest without collisions a verified row is bound by its hash exactly
when it is not a release of the reserve: only there does the entry type that the
row states not have to be the one that is hashed. -/
theorem verifyHistoryEntry_binds (injective : Function.Injective digest)
    (ha : verifyHistoryEntry digest a = .ok .canonicalV2Verified) :
    (∀ b, verifyHistoryEntry digest b = .ok .canonicalV2Verified →
        b.entryHash = a.entryHash → a.AgreesOnAudited b) ↔
      ¬ a.IsRelease := by
  constructor
  · intro hbound release
    obtain ⟨purpose, hpurpose, hother⟩ := exists_other_purpose a.entryType
    have hagrees := hbound _ (IsRelease.restated release ha hpurpose) rfl
    exact hother hagrees.entryType.symm
  · intro hrelease b hb hhash
    obtain ⟨-, kind, hkind, hvalid⟩ := verifyHistoryEntry_eq_ok.mp ha
    obtain ⟨-, kind', hkind', hvalid'⟩ := verifyHistoryEntry_eq_ok.mp hb
    obtain ⟨-, bytes, hbytes, hdigest⟩ := LedgerEntry.validate_eq_ok.mp hvalid
    obtain ⟨-, bytes', hbytes', hdigest'⟩ := LedgerEntry.validate_eq_ok.mp hvalid'
    have hsame : bytes' = bytes := injective (hdigest'.symm.trans (hhash.trans hdigest))
    have content := LedgerEntry.agreesOnContent_of_canonicalBytes hbytes (hsame ▸ hbytes')
    have hkinds : kind = kind' := content.kind
    have hledger : a.ledger = b.ledger := LedgerNamespace.text_injective <| by
      rw [← kindTable_scope _ (mem_kindTable hkind), hkinds,
        kindTable_scope _ (mem_kindTable hkind')]
    have hfixed : kind ≠ .reserveRelease := fun h =>
      hrelease ((kindTable_release _ (mem_kindTable hkind)).mp h)
    have hstated := kindTable_entryType _ (mem_kindTable hkind) hfixed .empty
    have hstated' := kindTable_entryType _ (mem_kindTable hkind') (hkinds ▸ hfixed) .empty
    rw [← hkinds] at hstated'
    exact {
      ledger := hledger
      accountId := content.accountId
      id := content.id
      requestId := content.requestId
      idempotencyKey := content.idempotencyKey
      entryType := Except.ok.inj (hstated.symm.trans hstated')
      deltaMicro := content.amountMicro
      balanceBeforeMicro := content.balanceBeforeMicro
      balanceAfterMicro := content.balanceAfterMicro
      createdAt := fun _ => content.createdAt
      prevHash := content.previousHash
      metadata := content.metadata }

end Binding

section Sample

/-- A digest without collisions that gives one text the hash it has under SHA-256. -/
def sampleInjective (text hash : String) (bytes : List UInt8) : String :=
  if bytes = utf8 text then hash
  else String.ofList ('#' :: bytes.map Char.ofUInt8)

theorem sampleInjective_injective {text hash : String} (h : hash.toList.head? ≠ some '#') :
    Function.Injective (sampleInjective text hash) := by
  have hbyte : Function.Injective Char.ofUInt8 := by
    intro a b hab
    have hnat : a.toUInt32.toNat = b.toUInt32.toNat :=
      congrArg (fun c : Char => c.val.toNat) hab
    rw [UInt8.toNat_toUInt32, UInt8.toNat_toUInt32] at hnat
    exact UInt8.toNat_inj.mp hnat
  intro x y hxy
  unfold sampleInjective at hxy
  split at hxy <;> split at hxy
  · rename_i hx hy
    exact hx.trans hy.symm
  · exact absurd (by rw [hxy, String.toList_ofList]; rfl) h
  · exact absurd (by rw [← hxy, String.toList_ofList]; rfl) h
  · have hlist := String.ofList_injective hxy
    exact (List.map_injective_iff.mpr hbyte) (List.cons.inj hlist).2

/-- A history row for the sample debit. -/
def sampleDebitRow : LedgerEntryResponse where
  ledger := .quota
  accountId := .fromU128 100
  id := .fromU128 1
  requestId := some (.fromU128 200)
  receiptId := none
  idempotencyKey := "entry-0"
  entryType := "consumer_deduction"
  deltaMicro := -500000
  balanceBeforeMicro := 2000000
  balanceAfterMicro := 1500000
  createdAt := sampleDebit.createdAt
  prevHash := genesisHash
  hashVersion := 2
  metadata := .singleton "source" "unit_test"
  recomputationStatus := .canonicalV2Recomputable
  entryHash := "7192c8404fbcac2b0a64ff6cef31756a8407f7a4c63dc1d2d8c066b4f1fff2ad"

theorem verifyHistoryEntry_binds_sample :
    (∀ b, verifyHistoryEntry (sampleInjective sampleDebitText sampleDebit.hash) b =
        .ok .canonicalV2Verified → b.entryHash = sampleDebitRow.entryHash →
        sampleDebitRow.AgreesOnAudited b) ↔ ¬ sampleDebitRow.IsRelease :=
  verifyHistoryEntry_binds (sampleInjective_injective (by decide)) (by decide +kernel)

/-- A history row for the sample release. -/
def sampleReleaseRow (entryType : String) : LedgerEntryResponse where
  ledger := .reserve
  accountId := .fromU128 1
  id := .fromU128 7
  requestId := none
  receiptId := none
  idempotencyKey := "release-1"
  entryType
  deltaMicro := -400
  balanceBeforeMicro := 1000
  balanceAfterMicro := 600
  createdAt := Database.sampleRelease.createdAt
  prevHash := "7192c8404fbcac2b0a64ff6cef31756a8407f7a4c63dc1d2d8c066b4f1fff2ad"
  hashVersion := 2
  metadata := Database.sampleRelease.metadata
  recomputationStatus := .canonicalV2Recomputable
  entryHash := "a44fdf4faf262e82ec297f93b46c3069527453c8a5dd30f4ed8fb68487590c41"

/-- A release for a retry is shown as one for peak capacity, and both rows verify. -/
theorem verifyHistoryEntry_binds_fails :
    ∃ digest, Function.Injective digest ∧ ∃ a b,
      verifyHistoryEntry digest a = .ok .canonicalV2Verified ∧
      verifyHistoryEntry digest b = .ok .canonicalV2Verified ∧
      a.entryHash = b.entryHash ∧ ¬ a.AgreesOnAudited b :=
  ⟨sampleInjective Database.sampleReleaseText Database.sampleRelease.hash,
    sampleInjective_injective (by decide),
    sampleReleaseRow "retry", sampleReleaseRow "peak_capacity", by decide +kernel,
    by decide +kernel, rfl, fun agrees => absurd agrees.entryType (by decide)⟩

end Sample

end MindOne.Quota
