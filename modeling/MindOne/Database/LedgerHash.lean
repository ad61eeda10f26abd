import Mathlib.Data.List.Sort
import Mathlib.Data.Rat.Floor
import Mathlib.Tactic.Push
import MindOne.Accounting.Ledger
import MindOne.Accounting.Reserve

/-!
# The canonical hash inside the database

The database recomputes the hash of every new ledger row from its columns. The
function is written here from its SQL text, over texts rather than bytes and
with the metadata taken from a JSON object in whatever order it is enumerated.
The main result is that for every entry the service can build, the row stored
for it is hashed from the same bytes.
-/

namespace MindOne.Database

open CheckedArithmetic Accounting

/-- A statement that the database rejects. -/
inductive SqlError where
  | raised (message errcode : String)
  | checkViolation (constraint : String)
  | uniqueViolation (constraint : String)
  | foreignKeyViolation (constraint : String)
  | noDataFound
  | tooManyRows
  | numericValueOutOfRange
  | inFailedTransaction
  deriving DecidableEq, Repr

abbrev SqlResult (α : Type) := Except SqlError α

/-- `RAISE EXCEPTION … USING ERRCODE='check_violation'`. -/
def raiseCheck (message : String) : SqlError := .raised message "check_violation"

/-- `RAISE EXCEPTION` without an error code. -/
def raiseException (message : String) : SqlError := .raised message "raise_exception"

/-- A `bigint` result, or the range error. -/
def toBigint (value : Int) : SqlResult Int :=
  if Fits 64 value then .ok value else .error .numericValueOutOfRange

theorem toBigint_eq_ok {value n : Int} :
    toBigint value = .ok n ↔ Fits 64 value ∧ value = n := by
  by_cases h : Fits 64 value <;> simp [toBigint, h]

/-- What one key of a JSON object may hold; only strings are told apart. -/
inductive JsonbValue where
  | string (text : String)
  | other
  deriving DecidableEq, Repr

inductive Jsonb where
  | object (entries : List (String × JsonbValue))
  | other
  deriving DecidableEq, Repr

inductive LedgerTable where
  | quotaLedger | contributionLedger | reserveLedger
  deriving DecidableEq, Repr

/-- The columns of a ledger row other than its hash. `createdAt` counts
microseconds since 2000; `userId` is absent in the reserve ledger, and
`auditReference` in the two others. -/
structure LedgerValues where
  id : Uuid
  userId : Option Uuid
  requestId : Option Uuid
  entryType : String
  deltaMicro : Int
  balanceBeforeMicro : Int
  balanceAfterMicro : Int
  idempotencyKey : String
  prevHash : String
  hashVersion : Int
  metadata : Jsonb
  auditReference : Option String
  createdAt : Int
  deriving DecidableEq, Repr

def octetLength (text : String) : Nat := (utf8 text).length

/-- One length-prefixed field appended to a text. -/
def appendField (canonical field : String) : String :=
  canonical ++ toString (octetLength field) ++ ":" ++ field

/-- `extract(epoch FROM created_at)`, an exact decimal in seconds. -/
def extractEpoch (createdAt : Int) : Rat :=
  ((createdAt + postgresEpochUnixSeconds * 1000000 : Int) : Rat) / 1000000

/-- `::bigint` on a decimal rounds to the nearest integer, halves away from zero. -/
def roundToBigint (value : Rat) : SqlResult Int :=
  toBigint (if 0 ≤ value then (value + 1 / 2).floor else -(-value + 1 / 2).floor)

/-- `ORDER BY convert_to(entry.key,'UTF8')`. -/
def orderByKeyBytes (entries : List (String × JsonbValue)) : List (String × JsonbValue) :=
  entries.insertionSort fun a b => byteRank a.1 ≤ byteRank b.1

/-- The loop over the metadata rows. -/
def appendMetadata : String → List (String × JsonbValue) → SqlResult String
  | canonical, [] => .ok canonical
  | canonical, (key, .string value) :: rest =>
      appendMetadata (appendField (appendField canonical key) value) rest
  | _, (_, .other) :: _ =>
      .error (.raised "canonical ledger metadata values must be strings"
        "invalid_parameter_value")

/-- The text that `mindoneLedgerHashV2` encodes and digests. -/
def mindoneLedgerCanonical (scope : String) (id accountId : Uuid) (requestId : Option Uuid)
    (idempotencyKey entryType : String)
    (deltaMicro balanceBeforeMicro balanceAfterMicro createdAt : Int)
    (prevHash : String) (metadata : Jsonb) : SqlResult String := do
  rejectIf (scope ∉ ["quota", "contribution", "reserve"])
    (.raised "invalid canonical ledger scope" "invalid_parameter_value")
  match metadata with
  | .other => .error (.raised "canonical ledger metadata must be an object"
      "invalid_parameter_value")
  | .object entries =>
      let createdAtUnixMicros ← roundToBigint (extractEpoch createdAt * 1000000)
      let canonical := [
        "mindone-ledger",
        "2",
        scope,
        id.text,
        accountId.text,
        (requestId.map Uuid.text).getD "",
        idempotencyKey,
        entryType,
        toString deltaMicro,
        toString balanceBeforeMicro,
        toString balanceAfterMicro,
        toString createdAtUnixMicros,
        prevHash,
        toString entries.length].foldl appendField ""
      appendMetadata canonical (orderByKeyBytes entries)

/-- The SQL function, over the digest it shares with the service. -/
def mindoneLedgerHashV2 (digest : List UInt8 → String) (scope : String)
    (id accountId : Uuid) (requestId : Option Uuid) (idempotencyKey entryType : String)
    (deltaMicro balanceBeforeMicro balanceAfterMicro createdAt : Int)
    (prevHash : String) (metadata : Jsonb) : SqlResult String := do
  let canonical ← mindoneLedgerCanonical scope id accountId requestId idempotencyKey
    entryType deltaMicro balanceBeforeMicro balanceAfterMicro createdAt prevHash metadata
  return digest (utf8 canonical)

def LedgerTable.scope : LedgerTable → String
  | .quotaLedger => "quota"
  | .contributionLedger => "contribution"
  | .reserveLedger => "reserve"

/-- The account a row is hashed under: the user's, or the fixed one of the reserve. -/
def LedgerTable.accountId (table : LedgerTable) (values : LedgerValues) : SqlResult Uuid :=
  match table, values.userId with
  | .reserveLedger, _ => .ok (.fromU128 1)
  | _, some userId => .ok userId
  | _, none => .error (.checkViolation "user_id")

/-- The type and direction check of `mindoneValidateCanonicalLedgerHash`. -/
def LedgerTable.checkTypeAndDirection (table : LedgerTable) (values : LedgerValues) :
    SqlResult Unit :=
  match table with
  | .quotaLedger =>
      rejectIf (values.entryType ∉
            ["consumer_deduction", "node_reward", "bootstrap_grant", "operator_grant"] ∨
          (values.entryType = "consumer_deduction" ∧ values.deltaMicro ≥ 0) ∨
          (values.entryType ≠ "consumer_deduction" ∧ values.deltaMicro ≤ 0))
        (raiseCheck "invalid canonical quota ledger type or direction")
  | .contributionLedger =>
      rejectIf (values.entryType ≠ "node_contribution" ∨ values.deltaMicro < 0)
        (raiseCheck "invalid canonical contribution ledger type or direction")
  | .reserveLedger =>
      rejectIf ((values.entryType = "settlement_inflow" ∧ values.deltaMicro ≤ 0) ∨
          (values.entryType ≠ "settlement_inflow" ∧ values.deltaMicro ≥ 0))
        (raiseCheck "invalid canonical reserve ledger direction")

/-- A metadata pair that the trigger refuses. -/
def unboundedPair : String × JsonbValue → Bool
  | (_, .other) => true
  | (key, .string value) =>
      octetLength key = 0 || octetLength key > 128 || octetLength value > 2048 ||
        hasControl key || hasControl value

/-- The hashed text of a row, with the arguments that the trigger passes. -/
def LedgerTable.rowCanonical (table : LedgerTable) (values : LedgerValues) :
    SqlResult String := do
  let accountId ← table.accountId values
  mindoneLedgerCanonical table.scope values.id accountId values.requestId
    values.idempotencyKey values.entryType values.deltaMicro values.balanceBeforeMicro
    values.balanceAfterMicro values.createdAt values.prevHash values.metadata

/-- The hash function applied to a row. -/
def LedgerTable.rowHash (digest : List UInt8 → String) (table : LedgerTable)
    (values : LedgerValues) : SqlResult String := do
  let accountId ← table.accountId values
  mindoneLedgerHashV2 digest table.scope values.id accountId values.requestId
    values.idempotencyKey values.entryType values.deltaMicro values.balanceBeforeMicro
    values.balanceAfterMicro values.createdAt values.prevHash values.metadata

/-- The trigger that precedes every ledger insert. It returns the hash of the row. -/
def mindoneValidateCanonicalLedgerHash (digest : List UInt8 → String) (table : LedgerTable)
    (values : LedgerValues) (entryHash : Option String) : SqlResult String := do
  rejectIf (values.hashVersion ≠ 2)
    (raiseCheck "new ledger rows must use canonical hash version 2")
  match values.metadata with
  | .other => .error (raiseCheck "ledger metadata must be a JSON object")
  | .object entries =>
      rejectIf (octetLength values.idempotencyKey = 0 ∨
          octetLength values.idempotencyKey > 255 ∨ hasControl values.idempotencyKey = true)
        (raiseCheck "ledger idempotency_key is invalid")
      rejectIf (entries.any unboundedPair)
        (raiseCheck "ledger metadata must contain bounded string pairs")
      table.checkTypeAndDirection values
      let expectedHash ← table.rowHash digest values
      rejectIf (∃ claimed ∈ entryHash, claimed ≠ expectedHash)
        (raiseCheck "ledger entry_hash does not match canonical row content")
      return expectedHash

/-- How the service encodes an instant: whole microseconds since 2000, toward zero. -/
def sqlxTimestamptz (instant : OffsetDateTime) : Int :=
  (instant.unixTimestampNanos - postgresEpochUnixSeconds * 1000000000).tdiv 1000

def reserveEntryType : ReservePurpose → String
  | .resultValidation => "verification"
  | .failedRetry => "retry"
  | .bandwidthSubsidy => "bandwidth"
  | .peakGuarantee => "peak_capacity"

theorem reserveEntryType_mem (purpose : ReservePurpose) :
    reserveEntryType purpose ∈ LedgerKind.releasePurposes := by
  cases purpose <;> decide

/-- `ledger_metadata_json`: every pair becomes a key with a string. -/
def ledgerMetadataJson (metadata : Metadata) : List (String × JsonbValue) :=
  metadata.entries.map fun pair => (pair.1, .string pair.2)

/-- The table and the entry type that the service writes an entry under. Entries
of the reserve are built for its fixed account, and a release carries its own
entry type as `purpose`. -/
inductive WrittenAs (entry : LedgerEntry) : LedgerTable → String → Prop
  | consumerDeduction : entry.kind = .consumerDeduction →
      WrittenAs entry .quotaLedger "consumer_deduction"
  | nodeReward : entry.kind = .nodeQuotaCredit → WrittenAs entry .quotaLedger "node_reward"
  | bootstrapGrant : entry.kind = .bootstrapGrant →
      WrittenAs entry .quotaLedger "bootstrap_grant"
  | operatorGrant : entry.kind = .operatorGrant →
      WrittenAs entry .quotaLedger "operator_grant"
  | nodeContribution : entry.kind = .contributionCredit →
      WrittenAs entry .contributionLedger "node_contribution"
  | settlementInflow : entry.kind = .reserveInflow → entry.accountId = .fromU128 1 →
      WrittenAs entry .reserveLedger "settlement_inflow"
  | reserveRelease (purpose : ReservePurpose) : entry.kind = .reserveRelease →
      entry.accountId = .fromU128 1 →
      entry.metadata.get "purpose" = some (reserveEntryType purpose) →
      WrittenAs entry .reserveLedger (reserveEntryType purpose)

/-- The row that the service binds for an entry, its metadata in some enumeration. -/
def storedValues (entry : LedgerEntry) (table : LedgerTable) (entryType : String)
    (stored : List (String × JsonbValue)) (auditReference : Option String) :
    LedgerValues where
  id := entry.id
  userId := if table = .reserveLedger then none else some entry.accountId
  requestId := entry.requestId
  entryType
  deltaMicro := entry.amountMicro
  balanceBeforeMicro := entry.balanceBeforeMicro
  balanceAfterMicro := entry.balanceAfterMicro
  idempotencyKey := entry.idempotencyKey
  prevHash := entry.previousHash
  hashVersion := entry.hashVersion
  metadata := .object stored
  auditReference
  createdAt := sqlxTimestamptz entry.createdAt

theorem utf8_empty : utf8 "" = [] := by decide

theorem utf8_append (a b : String) : utf8 (a ++ b) = utf8 a ++ utf8 b := by
  simp [utf8, String.toByteArray_append]

/-- Appending a field to a text appends the same field to its bytes. -/
theorem utf8_appendField (canonical field : String) :
    utf8 (appendField canonical field) = appendCanonicalField (utf8 canonical) field := by
  have hcolon : utf8 ":" = [58] := by decide
  simp only [appendField, appendCanonicalField, octetLength, utf8_append, hcolon]

theorem utf8_foldl_appendField (texts : List String) (canonical : String) :
    utf8 (texts.foldl appendField canonical) =
      texts.foldl appendCanonicalField (utf8 canonical) := by
  induction texts generalizing canonical with
  | nil => rfl
  | cons text texts ih => rw [List.foldl_cons, List.foldl_cons, ih, utf8_appendField]

theorem appendMetadata_strings (pairs : List (String × String)) (canonical : String) :
    appendMetadata canonical (pairs.map fun pair => (pair.1, .string pair.2)) =
      .ok ((pairs.flatMap fun pair => [pair.1, pair.2]).foldl appendField canonical) := by
  induction pairs generalizing canonical with
  | nil => rfl
  | cons pair pairs ih => exact ih _

/-- Seconds times a million are whole microseconds again: the rounding is exact. -/
theorem roundToBigint_extractEpoch (createdAt : Int) :
    roundToBigint (extractEpoch createdAt * 1000000) =
      toBigint (createdAt + postgresEpochUnixSeconds * 1000000) := by
  have hexact : extractEpoch createdAt * 1000000 =
      ((createdAt + postgresEpochUnixSeconds * 1000000 : Int) : Rat) := by
    rw [extractEpoch]
    exact div_mul_cancel₀ _ (by norm_num)
  rw [roundToBigint, hexact]
  congr 1
  generalize createdAt + postgresEpochUnixSeconds * 1000000 = micros
  have hfloor (n : Int) : ((n : Rat) + 1 / 2).floor = n := by
    apply le_antisymm
    · rw [← Int.lt_add_one_iff, Rat.floor_lt_iff]
      push_cast
      linarith
    · rw [Rat.le_floor_iff]
      linarith
  split
  · exact hfloor micros
  · have := hfloor (-micros)
    push_cast at this
    omega

theorem pairwise_orderByKeyBytes (entries : List (String × JsonbValue)) :
    (orderByKeyBytes entries).Pairwise fun a b => byteRank a.1 ≤ byteRank b.1 := by
  have : Std.Total fun a b : String × JsonbValue => byteRank a.1 ≤ byteRank b.1 :=
    ⟨fun a b => le_total (byteRank a.1) (byteRank b.1)⟩
  have : IsTrans (String × JsonbValue) fun a b => byteRank a.1 ≤ byteRank b.1 :=
    ⟨fun _ _ _ hab hbc => le_trans hab hbc⟩
  exact List.pairwise_insertionSort _ entries

/-- Sorting by key bytes brings any enumeration back to the order of the service. -/
theorem orderByKeyBytes_perm {metadata : Metadata} {stored : List (String × JsonbValue)}
    (h : stored.Perm (ledgerMetadataJson metadata)) :
    orderByKeyBytes stored = ledgerMetadataJson metadata := by
  have hsorted : (ledgerMetadataJson metadata).Pairwise
      fun a b => byteRank a.1 < byteRank b.1 :=
    List.pairwise_map.mpr metadata.sorted
  have hnodup : ((ledgerMetadataJson metadata).map fun pair => byteRank pair.1).Nodup :=
    List.pairwise_map.mpr (hsorted.imp ne_of_lt)
  have hperm := (List.perm_insertionSort
    (fun a b : String × JsonbValue => byteRank a.1 ≤ byteRank b.1) stored).trans h
  refine hperm.eq_of_pairwise ?_ (pairwise_orderByKeyBytes stored) (hsorted.imp le_of_lt)
  intro a b ha hb hab hba
  exact List.inj_on_of_nodup_map hnodup (hperm.subset ha) hb (le_antisymm hab hba)

theorem rowHash_eq_ok {digest : List UInt8 → String} {table : LedgerTable}
    {values : LedgerValues} {hash : String} :
    table.rowHash digest values = .ok hash ↔
      ∃ text, table.rowCanonical values = .ok text ∧ hash = digest (utf8 text) := by
  simp only [LedgerTable.rowHash, LedgerTable.rowCanonical, mindoneLedgerHashV2, bind_eq_ok]
  constructor
  · rintro ⟨accountId, haccount, text, htext, h⟩
    exact ⟨text, ⟨accountId, haccount, htext⟩, (Except.ok.inj h).symm⟩
  · rintro ⟨text, ⟨accountId, haccount, htext⟩, rfl⟩
    exact ⟨accountId, haccount, text, htext, rfl⟩

section Agreement
variable {digest : List UInt8 → String} {entry : LedgerEntry} {table : LedgerTable}
  {entryType : String} {stored : List (String × JsonbValue)}

/-- The table and type an entry is written under are the scope, the account and
the type it is hashed with. -/
theorem WrittenAs.spec (written : WrittenAs entry table entryType)
    (stored : List (String × JsonbValue)) (auditReference : Option String) :
    table.scope = entry.kind.scope ∧
      table.accountId (storedValues entry table entryType stored auditReference) =
        .ok entry.accountId ∧
      entry.kind.entryType entry.metadata = .ok entryType := by
  cases written with
  | reserveRelease purpose kind account stated =>
      rw [kind]
      exact ⟨rfl, congrArg Except.ok account.symm,
        LedgerKind.entryType_release.mpr ⟨stated, reserveEntryType_mem purpose⟩⟩
  | settlementInflow kind account =>
      rw [kind]
      exact ⟨rfl, congrArg Except.ok account.symm, rfl⟩
  | consumerDeduction kind => rw [kind]; exact ⟨rfl, rfl, rfl⟩
  | nodeReward kind => rw [kind]; exact ⟨rfl, rfl, rfl⟩
  | bootstrapGrant kind => rw [kind]; exact ⟨rfl, rfl, rfl⟩
  | operatorGrant kind => rw [kind]; exact ⟨rfl, rfl, rfl⟩
  | nodeContribution kind => rw [kind]; exact ⟨rfl, rfl, rfl⟩

theorem LedgerTable.scope_mem (table : LedgerTable) :
    table.scope ∈ ["quota", "contribution", "reserve"] := by
  cases table <;> decide

/-- The two canonical forms of an entry of the current version are the same bytes. -/
theorem rowCanonical_storedValues (version : entry.hashVersion = ledgerHashVersion)
    (written : WrittenAs entry table entryType) (auditReference : Option String)
    (enumerated : stored.Perm (ledgerMetadataJson entry.metadata)) :
    ∃ text, table.rowCanonical (storedValues entry table entryType stored auditReference) =
      .ok text ∧ entry.canonicalBytes = .ok (utf8 text) := by
  obtain ⟨scope, account, kind⟩ := written.spec stored auditReference
  have hlength : stored.length = entry.metadata.entries.length := by
    rw [enumerated.length_eq, ledgerMetadataJson, List.length_map]
  have hmicros : roundToBigint (extractEpoch (sqlxTimestamptz entry.createdAt) * 1000000) =
      .ok entry.createdAtUnixMicros := by
    rw [roundToBigint_extractEpoch]
    exact toBigint_eq_ok.mpr ⟨entry.fits_createdAtUnixMicros, rfl⟩
  refine ⟨(entry.canonicalTexts entryType).foldl appendField "", ?_, ?_⟩
  · refine bind_eq_ok.mpr ⟨_, account, ?_⟩
    simp only [bind_eq_ok, mindoneLedgerCanonical, storedValues, rejectIf_eq_ok,
      exists_const, not_not]
    refine ⟨table.scope_mem, _, hmicros, ?_⟩
    rw [orderByKeyBytes_perm enumerated, ledgerMetadataJson, appendMetadata_strings,
      ← List.foldl_append, hlength, scope, LedgerEntry.canonicalTexts, version]
    rfl
  · refine LedgerEntry.canonicalBytes_eq_ok.mpr ⟨version, entryType, kind, ?_⟩
    rw [utf8_foldl_appendField, foldl_appendCanonicalField, utf8_empty, List.nil_append]

/-- For every entry that the service can build and every row it is stored as, the
database hashes the bytes that the service hashed, and so computes the same hash. -/
theorem mindoneLedgerHashV2_agrees {id accountId : Uuid} {requestId : Option Uuid}
    {idempotencyKey : String} {kind : LedgerKind}
    {amountMicro balanceBeforeMicro balanceAfterMicro : Int} {createdAt : OffsetDateTime}
    {previousHash : String} {metadata : Metadata}
    (built : LedgerEntry.new digest id accountId requestId idempotencyKey kind amountMicro
      balanceBeforeMicro balanceAfterMicro createdAt previousHash metadata = .ok entry)
    (written : WrittenAs entry table entryType) (auditReference : Option String)
    (enumerated : stored.Perm (ledgerMetadataJson entry.metadata)) :
    ∃ text, table.rowCanonical (storedValues entry table entryType stored auditReference) =
        .ok text ∧
      entry.canonicalBytes = .ok (utf8 text) ∧
      table.rowHash digest (storedValues entry table entryType stored auditReference) =
        .ok entry.hash := by
  obtain ⟨fields, bytes, hbytes, hhash⟩ :=
    LedgerEntry.validate_eq_ok.mp (LedgerEntry.new_eq_ok.mp built).1
  obtain ⟨text, hrow, hentry⟩ :=
    rowCanonical_storedValues fields.hashVersion written auditReference enumerated
  have hsame : bytes = utf8 text := Except.ok.inj (hbytes.symm.trans hentry)
  exact ⟨text, hrow, hentry, rowHash_eq_ok.mpr ⟨text, hrow, hhash.trans (by rw [hsame])⟩⟩

end Agreement

section Sample

/-- A release built half a microsecond before the year 2000. -/
def sampleRelease : LedgerEntry where
  hashVersion := 2
  id := .fromU128 7
  accountId := .fromU128 1
  requestId := none
  idempotencyKey := "release-1"
  kind := .reserveRelease
  amountMicro := -400
  balanceBeforeMicro := 1000
  balanceAfterMicro := 600
  createdAt := ⟨946684799999999500, by decide⟩
  previousHash := "7192c8404fbcac2b0a64ff6cef31756a8407f7a4c63dc1d2d8c066b4f1fff2ad"
  metadata := ⟨[("operator_id", "ops"), ("purpose", "retry"),
    ("reason", "retry after failure"), ("reference_id", "job-1")], by decide⟩
  hash := "a44fdf4faf262e82ec297f93b46c3069527453c8a5dd30f4ed8fb68487590c41"

def sampleReleaseText : String :=
  "14:mindone-ledger1:27:reserve36:00000000-0000-0000-0000-000000000007" ++
  "36:00000000-0000-0000-0000-0000000000010:9:release-15:retry4:-4004:10003:600" ++
  "15:94668480000000064:7192c8404fbcac2b0a64ff6cef31756a8407f7a4c63dc1d2d8c066b4f1fff2ad" ++
  "1:411:operator_id3:ops7:purpose5:retry6:reason19:retry after failure" ++
  "12:reference_id5:job-1"

/-- SHA-256 in lower-case hexadecimal, on the bytes of the sample release. -/
def sampleReleaseDigest (bytes : List UInt8) : String :=
  if bytes = utf8 sampleReleaseText then
    "a44fdf4faf262e82ec297f93b46c3069527453c8a5dd30f4ed8fb68487590c41"
  else ""

/-- The metadata enumerated by key length, as the database keeps it. -/
theorem mindoneLedgerHashV2_agrees_release :
    let values := storedValues sampleRelease .reserveLedger "retry"
      [("reason", .string "retry after failure"), ("purpose", .string "retry"),
        ("operator_id", .string "ops"), ("reference_id", .string "job-1")] (some "job-1")
    ∃ text, LedgerTable.reserveLedger.rowCanonical values = .ok text ∧
      sampleRelease.canonicalBytes = .ok (utf8 text) ∧
      LedgerTable.reserveLedger.rowHash sampleReleaseDigest values =
        .ok sampleRelease.hash := by
  have hfields : sampleRelease.validateFields = .ok () := by decide +kernel
  have hbytes : sampleRelease.canonicalBytes = .ok (utf8 sampleReleaseText) := by
    decide +kernel
  have hvalid : sampleRelease.validate sampleReleaseDigest = .ok () :=
    LedgerEntry.validate_eq_ok.mpr ⟨LedgerEntry.validateFields_eq_ok.mp hfields, _, hbytes,
      by simp [sampleReleaseDigest, sampleRelease]⟩
  exact mindoneLedgerHashV2_agrees (LedgerEntry.new_eq_ok.mpr ⟨hvalid, rfl⟩)
    (.reserveRelease .failedRetry rfl rfl rfl) (some "job-1") (by decide)

end Sample

end MindOne.Database
