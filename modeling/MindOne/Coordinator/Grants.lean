import MindOne.Accounting.Reserve
import MindOne.Coordinator.Settlement

/-!
# Grants and releases of the reserve

Quota enters through a development grant with a new account or through an
operator's grant, and leaves through an operator's release of the reserve. Each
is written to its ledger with an audit row, and a repeated key is answered from
the rows that exist.
-/

namespace MindOne.Coordinator

open CheckedArithmetic Accounting Database KeyedTable

/-- `trim` leaves the text as it is. -/
def isTrimmed (text : String) : Bool :=
  text.toList.head?.all (fun c => !isWhitespace c) &&
    text.toList.getLast?.all fun c => !isWhitespace c

def validAsciiIdentifier (value : String) : Bool :=
  value.toList.head?.any Char.isAlphanum && (utf8 value).length ≤ 128 &&
    value.toList.all fun c => c.isAlphanum || c ∈ ['.', '_', ':', '@', '/', '-']

def validOperatorIdentifier : String → Bool := validAsciiIdentifier

/-- A reason that an operator states. -/
def validReason (reason : String) : Bool :=
  8 ≤ reason.toList.length && reason.toList.length ≤ 512 && isTrimmed reason &&
    !hasControl reason

def maxOperatorGrantMicro : Int := 1000000000000

def maxOperatorReserveReleaseMicro : Int := 1000000000000

inductive OperatorQuotaGrantError where
  | invalidInput (message : String)
  | userNotFound (userId : Uuid)
  | accountNotFound (userId : Uuid)
  | idempotencyConflict
  | balanceOverflow
  | accounting (error : AccountingError)
  | database

/-- Errors of the accounting rules. -/
def orAccounting {α : Type} : Result α → Except OperatorQuotaGrantError α
  | .ok a => .ok a
  | .error error => .error (.accounting error)

@[simp] theorem orAccounting_eq_ok {α : Type} {x : Result α} {a : α} :
    orAccounting x = .ok a ↔ x = .ok a := by
  cases x <;> simp [orAccounting]

/-- Errors of the database. -/
def orDatabase {ε α : Type} : Except ε α → Except OperatorQuotaGrantError α
  | .ok a => .ok a
  | .error _ => .error .database

@[simp] theorem orDatabase_eq_ok {ε α : Type} {x : Except ε α} {a : α} :
    orDatabase x = .ok a ↔ x = .ok a := by
  cases x <;> simp [orDatabase]

namespace OperatorQuotaGrantRequest

def validate (request : OperatorQuotaGrantRequest) : Except OperatorQuotaGrantError Unit := do
  rejectIf (¬ (1 ≤ request.amountMicro ∧ request.amountMicro ≤ maxOperatorGrantMicro))
    (.invalidInput "amount_micro 必须在 1..=1000000000000")
  rejectIf (validAsciiIdentifier request.idempotencyKey = false)
    (.invalidInput "idempotency_key 必须是 1 到 128 字节的 ASCII 标识符")
  rejectIf (validAsciiIdentifier request.operatorId = false)
    (.invalidInput "operator 必须是 1 到 128 字节的 ASCII 标识符")
  rejectIf (validReason request.reason = false)
    (.invalidInput "reason 必须是 8 到 512 个字符、无首尾空白或控制字符")

end OperatorQuotaGrantRequest

structure OperatorQuotaGrantResult where
  grantId : Uuid
  userId : Uuid
  amountMicro : Int
  balanceBeforeMicro : Int
  balanceAfterMicro : Int
  quotaLedgerId : Uuid
  quotaLedgerEntryHash : String
  idempotentReplay : Bool

structure ReserveReleaseOutcome where
  operatorAuditId : Uuid
  releaseId : Uuid
  purpose : ReservePurpose
  amountMicro : Int
  balanceBeforeMicro : Int
  balanceAfterMicro : Int
  referenceId : String
  entryHash : String
  idempotentReplay : Bool

section Metadata

def bootstrapMetadata (provider : String) : Metadata where
  entries := [("environment", "local-development"), ("provider", provider)]
  sorted := by
    simp only [List.pairwise_cons, List.mem_cons, List.not_mem_nil, or_false, forall_eq,
      false_imp_iff, implies_true, List.Pairwise.nil, and_true]
    decide +kernel

def grantMetadata (operatorId reason : String) : Metadata where
  entries := [("operator_id", operatorId), ("reason", reason)]
  sorted := by
    simp only [List.pairwise_cons, List.mem_cons, List.not_mem_nil, or_false, forall_eq,
      false_imp_iff, implies_true, List.Pairwise.nil, and_true]
    decide +kernel

def releaseMetadata (command : ReserveReleaseCommand) : Metadata where
  entries := [("operator_id", command.operatorId),
    ("purpose", reserveEntryType command.purpose), ("reason", command.reason),
    ("reference_id", command.referenceId)]
  sorted := by
    simp only [List.pairwise_cons, List.mem_cons, List.not_mem_nil, or_false,
      forall_eq_or_imp, forall_eq, false_imp_iff, implies_true, List.Pairwise.nil, and_true]
    decide +kernel

end Metadata

section Grants
variable (env : Services)

/-- The statement that opens an account, with its trigger and its constraints. -/
def Db.openAccount (db : Db) (userId : Uuid) : ApiResult Db := do
  let changes ← orInternal (RowOperation.execute (db.schema env.digest)
    (.insertAccount (.new userId)) db.ledger)
  return { db with ledger := changes.foldl LedgerDb.apply db.ledger }

/-- The development grant of a new account. -/
def fundAccount (opened : Db) (userId : Uuid) (provider : String) (initialQuota : Int)
    (stamp : Stamp) : ApiResult Db :=
  if 0 < initialQuota then do
    let ledger ← orInternal (LedgerEntry.new env.digest stamp.id userId none
      ("local-dev-bootstrap:" ++ userId.text) .bootstrapGrant initialQuota 0 initialQuota
      stamp.createdAt genesisHash (bootstrapMetadata provider))
    let written ← insertEntry (opened.schema env.digest) opened.ledger .quotaLedger ledger
      "bootstrap_grant" none
    return { opened with ledger := written }
  else .ok opened

/-- The row of a user, written at the first login. -/
def Db.learnUser (db : Db) (userId : Uuid) : Db :=
  if userId ∈ db.users then db else { db with users := db.users ++ [userId] }

/-- The part of a login that opens the account of a user. The initial quota is zero
outside of local development. -/
def bootstrapAccount (db : Db) (userId : Uuid) (provider : String) (initialQuota : Int)
    (stamp : Stamp) : ApiResult Db :=
  let known := db.learnUser userId
  match known.ledger.accounts.find userId with
  | some _ => .ok known
  | none => do
      let opened ← known.openAccount env userId
      fundAccount env opened userId provider initialQuota stamp

/-- The grant that a key was used for, with its ledger row. -/
def existingGrant (db : Db) (idempotencyKey : String) :
    Option (OperatorQuotaGrant × LedgerRow) := do
  let grant ← db.operatorQuotaGrants.find idempotencyKey
  let row ← db.ledger.quotaLedger.find? fun row => row.id = grant.quotaLedgerId
  return (grant, row)

def replayGrant (request : OperatorQuotaGrantRequest) (grant : OperatorQuotaGrant)
    (row : LedgerRow) : Except OperatorQuotaGrantError OperatorQuotaGrantResult := do
  rejectIf (¬ (grant.userId = request.userId ∧ grant.amountMicro = request.amountMicro ∧
    grant.operatorId = request.operatorId ∧ grant.reason = request.reason ∧
    grant.requestFingerprint = env.grantFingerprint request)) .idempotencyConflict
  return {
    grantId := grant.id
    userId := request.userId
    amountMicro := request.amountMicro
    balanceBeforeMicro := row.balanceBeforeMicro
    balanceAfterMicro := row.balanceAfterMicro
    quotaLedgerId := grant.quotaLedgerId
    quotaLedgerEntryHash := grant.quotaLedgerEntryHash
    idempotentReplay := true }

/-- `INSERT INTO operator_quota_grants`, with its trigger and its unique indexes. -/
def Db.insertGrant (db : Db) (grant : OperatorQuotaGrant) :
    Except OperatorQuotaGrantError Db := do
  rejectIf (¬ ∃ row ∈ db.ledger.quotaLedger, row.id = grant.quotaLedgerId ∧
    row.userId = some grant.userId ∧ row.requestId = none ∧
    row.entryType = "operator_grant" ∧ row.deltaMicro = grant.amountMicro ∧
    row.balanceAfterMicro = row.balanceBeforeMicro + grant.amountMicro ∧
    row.idempotencyKey = "operator-grant:" ++ grant.idempotencyKey ∧
    row.entryHash = grant.quotaLedgerEntryHash ∧
    ∃ account ∈ db.ledger.accounts.find grant.userId,
      account.spendableMicro = row.balanceAfterMicro) .database
  rejectIf (∃ other ∈ db.operatorQuotaGrants.rows, other.id = grant.id ∨
    other.idempotencyKey = grant.idempotencyKey ∨
    other.quotaLedgerId = grant.quotaLedgerId) .database
  return { db with operatorQuotaGrants := db.operatorQuotaGrants.set grant }

/-- The part of `grant_operator_quota` that follows the replay check. -/
def writeGrant (db : Db) (request : OperatorQuotaGrantRequest) (account : QuotaAccount)
    (grantId : Uuid) (stamp : Stamp) :
    Except OperatorQuotaGrantError (Db × OperatorQuotaGrantResult) := do
  let balanceBeforeMicro := account.spendableMicro
  let balanceAfterMicro := balanceBeforeMicro + request.amountMicro
  rejectIf (¬ Fits 64 balanceAfterMicro) .balanceOverflow
  let ledger ← orAccounting (LedgerEntry.new env.digest stamp.id request.userId none
    ("operator-grant:" ++ request.idempotencyKey) .operatorGrant request.amountMicro
    balanceBeforeMicro balanceAfterMicro stamp.createdAt account.quotaLedgerHeadHash
    (grantMetadata request.operatorId request.reason))
  let written ← orDatabase (insertEntry (db.schema env.digest) db.ledger .quotaLedger ledger
    "operator_grant" none)
  let granted ← Db.insertGrant { db with ledger := written } {
    id := grantId
    userId := request.userId
    operatorId := request.operatorId
    reason := request.reason
    amountMicro := request.amountMicro
    idempotencyKey := request.idempotencyKey
    requestFingerprint := env.grantFingerprint request
    quotaLedgerId := ledger.id
    quotaLedgerEntryHash := ledger.hash }
  return (granted, {
    grantId
    userId := request.userId
    amountMicro := request.amountMicro
    balanceBeforeMicro
    balanceAfterMicro
    quotaLedgerId := ledger.id
    quotaLedgerEntryHash := ledger.hash
    idempotentReplay := false })

def grantOperatorQuota (db : Db) (request : OperatorQuotaGrantRequest) (grantId : Uuid)
    (stamp : Stamp) : Except OperatorQuotaGrantError (Db × OperatorQuotaGrantResult) := do
  request.validate
  match existingGrant db request.idempotencyKey with
  | some (grant, row) => do
      return (db, ← replayGrant env request grant row)
  | none =>
  match (db.ledger.accounts.find request.userId).filter fun _ => request.userId ∈ db.users with
  | some account => writeGrant env db request account grantId stamp
  | none =>
      if request.userId ∈ db.users then .error (.accountNotFound request.userId)
      else .error (.userNotFound request.userId)

def validateReserveReleaseCommand (command : ReserveReleaseCommand) : ApiResult Unit := do
  rejectIf (¬ (1 ≤ command.amountMicro ∧
      command.amountMicro ≤ maxOperatorReserveReleaseMicro))
    (.badRequest "invalid_reserve_amount"
      "准备金释放 amount_micro 必须在 1..=1000000000000")
  rejectIf (validOperatorIdentifier command.idempotencyKey = false)
    (.badRequest "invalid_idempotency_key"
      "准备金释放 idempotency_key 必须是 1 到 128 字节的安全 ASCII 标识符")
  rejectIf (validOperatorIdentifier command.operatorId = false)
    (.badRequest "invalid_operator" "operator 必须是 1 到 128 字节的安全 ASCII 标识符")
  rejectIf (command.referenceId = "" ∨ (utf8 command.referenceId).length > 255 ∨
      isTrimmed command.referenceId = false ∨ hasControl command.referenceId = true)
    (.badRequest "invalid_reserve_reference"
      "reference 必须是 1 到 255 字节、无首尾空白或控制字符的审计引用")
  rejectIf (validReason command.reason = false)
    (.badRequest "invalid_operator_reason"
      "reason 必须是 8 到 512 个字符、无首尾空白或控制字符")

/-- The reserve row that a key was used for, with its audit row. -/
def existingRelease (db : Db) (idempotencyKey : String) :
    Option (LedgerRow × Option OperatorReserveRelease) := do
  let row ← db.ledger.reserveLedger.find? fun row => row.idempotencyKey = idempotencyKey
  return (row, db.operatorReserveReleases.find row.id)

def replayRelease (command : ReserveReleaseCommand) (row : LedgerRow)
    (audit : Option OperatorReserveRelease) : ApiResult ReserveReleaseOutcome := do
  rejectIf (row.deltaMicro ≠ -command.amountMicro ∨
      row.auditReference ≠ some command.referenceId ∨
      row.entryType ≠ reserveEntryType command.purpose ∨
      audit.map OperatorReserveRelease.requestFingerprint ≠
        some (env.releaseFingerprint command) ∨
      audit.isNone = true)
    (.conflict "idempotency_key_reused" "准备金幂等键已经用于不同释放请求")
  let stored ← fetchOne audit
  return {
    operatorAuditId := stored.id
    releaseId := row.id
    purpose := command.purpose
    amountMicro := command.amountMicro
    balanceBeforeMicro := row.balanceBeforeMicro
    balanceAfterMicro := row.balanceAfterMicro
    referenceId := command.referenceId
    entryHash := row.entryHash
    idempotentReplay := true }

/-- An insufficient balance has its own error. -/
def mapReleaseError {α : Type} : Result α → ApiResult α
  | .ok a => .ok a
  | .error (.insufficientBalance _ _) => .error (.conflict "reserve_insufficient" "网络准备金余额不足")
  | .error _ => .error .internal

/-- The signed amounts of the reserve ledger, as one of its two totals. -/
def reserveTotal (db : Db) (part : Int → Int) : ApiResult MicroQuota := do
  let total ← orInternal (toBigint ((db.ledger.reserveLedger.map fun row =>
    part row.deltaMicro).sum))
  orInternal (MicroQuota.new total)

def reserveState (db : Db) : ApiResult ReserveState := do
  let totalInflow ← reserveTotal db fun delta => max delta 0
  let totalOutflow ← reserveTotal db fun delta => max (-delta) 0
  let balance ← orInternal (MicroQuota.new db.ledger.reserve.balanceMicro)
  return { balance, totalInflow, totalOutflow }

/-- `INSERT INTO operator_reserve_releases`, with its trigger and its unique indexes. -/
def Db.insertRelease (db : Db) (release : OperatorReserveRelease) : ApiResult Db := do
  rejectIf (¬ ∃ row ∈ db.ledger.reserveLedger, row.id = release.reserveLedgerId ∧
    row.requestId = none ∧ row.entryType = reserveEntryType release.purpose ∧
    row.deltaMicro = -release.amountMicro ∧
    row.balanceAfterMicro = row.balanceBeforeMicro - release.amountMicro ∧
    row.idempotencyKey = release.idempotencyKey ∧
    row.auditReference = some release.referenceId ∧
    row.entryHash = release.reserveLedgerEntryHash ∧
    db.ledger.reserve.balanceMicro = row.balanceAfterMicro) .internal
  rejectIf (∃ other ∈ db.operatorReserveReleases.rows, other.id = release.id ∨
    other.reserveLedgerId = release.reserveLedgerId ∨
    other.idempotencyKey = release.idempotencyKey ∨
    other.requestFingerprint = release.requestFingerprint) .internal
  return { db with operatorReserveReleases := db.operatorReserveReleases.set release }

/-- The part of `release_reserve` that follows the replay check. -/
def writeRelease (db : Db) (command : ReserveReleaseCommand) (operatorAuditId : Uuid)
    (stamp : Stamp) : ApiResult (Db × ReserveReleaseOutcome) := do
  let amount ← orInternal (MicroQuota.new command.amountMicro)
  let before ← reserveState db
  let (_, release) ← mapReleaseError (before.release stamp.id command.purpose amount
    command.referenceId stamp.createdAt)
  let balanceBeforeMicro := db.ledger.reserve.balanceMicro
  let balanceAfterMicro := release.balanceAfter.asI64
  let ledger ← orInternal (LedgerEntry.new env.digest stamp.id (.fromU128 1) none
    command.idempotencyKey .reserveRelease (-command.amountMicro) balanceBeforeMicro
    balanceAfterMicro stamp.createdAt db.ledger.reserve.ledgerHeadHash (releaseMetadata command))
  let written ← insertEntry (db.schema env.digest) db.ledger .reserveLedger ledger
    (reserveEntryType command.purpose) (some command.referenceId)
  let released ← Db.insertRelease { db with ledger := written } {
    id := operatorAuditId
    reserveLedgerId := stamp.id
    purpose := command.purpose
    operatorId := command.operatorId
    reason := command.reason
    amountMicro := command.amountMicro
    referenceId := command.referenceId
    idempotencyKey := command.idempotencyKey
    requestFingerprint := env.releaseFingerprint command
    reserveLedgerEntryHash := ledger.hash }
  return (released, {
    operatorAuditId
    releaseId := stamp.id
    purpose := command.purpose
    amountMicro := command.amountMicro
    balanceBeforeMicro
    balanceAfterMicro
    referenceId := command.referenceId
    entryHash := ledger.hash
    idempotentReplay := false })

def releaseReserve (db : Db) (command : ReserveReleaseCommand) (operatorAuditId : Uuid)
    (stamp : Stamp) : ApiResult (Db × ReserveReleaseOutcome) := do
  validateReserveReleaseCommand command
  match existingRelease db command.idempotencyKey with
  | some (row, audit) => do
      return (db, ← replayRelease env command row audit)
  | none => writeRelease env db command operatorAuditId stamp

end Grants

end MindOne.Coordinator
