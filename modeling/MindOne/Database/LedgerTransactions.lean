import MindOne.Lib.RowLocks
import MindOne.Database.LedgerInvariant

/-!
# Ledger heads under concurrent transactions

Transactions run statements against the ledger tables in any order. A ledger
insert locks the account it advances, and the entries it adds to the unique
indexes; a direct update or delete of an account locks that account. Whatever
they attempt, committed or not, heads and rows agree.
-/

namespace MindOne.Database

open CheckedArithmetic Accounting KeyedTable RowLocks

/-- One statement, and what the rest of the schema holds when it runs. -/
structure Statement where
  references : References
  operations : List RowOperation

section Engine
variable (digest : List UInt8 → String)

/-- The locks a row operation takes. An insert that fails its hash check stops
before it reaches the index of hashes. -/
def RowOperation.locks : RowOperation → List Lock
  | .insertAccount new => [.account new.userId]
  | .updateAccount userId _ | .deleteAccount userId | .lockAccount userId => [.account userId]
  | .insertReserve _ _ | .updateReserve _ | .deleteReserve | .lockReserve => [.reserve]
  | .insertLedger table values entryHash => table.ownerLock values.userId ++
      [.rowId table values.id, .idempotencyKey table values.idempotencyKey] ++
      match mindoneValidateCanonicalLedgerHash digest table values entryHash with
      | .ok hash => [.entryHash table hash]
      | .error _ => []
  | .mutateLedger _ _ => []

/-- The database as an engine of transactions under row locks. -/
def ledgerEngine : Engine LedgerDb Change Lock Statement SqlError where
  apply := LedgerDb.apply
  execute := fun statement => executeStatement ⟨digest, statement.references⟩
    statement.operations
  locks := fun statement => statement.operations.flatMap (RowOperation.locks digest)

end Engine

section Confined
variable {schema : Schema} {db : LedgerDb} {changes : List Change}

/-- A row operation changes only what it has locked. -/
theorem RowOperation.confined {operation : RowOperation}
    (h : operation.execute schema db = .ok changes) :
    ∀ change ∈ changes, ∀ lock ∈ change.touches, lock ∈ operation.locks schema.digest := by
  cases operation with
  | insertAccount new =>
      simp only [RowOperation.execute, bind_eq_ok, rejectIf_eq_ok, exists_const] at h
      obtain ⟨_, -, _, -, -, -, hchanges⟩ := h
      cases hchanges
      simp [Change.touches, RowOperation.locks]
  | updateAccount userId new =>
      simp only [RowOperation.execute] at h
      split at h
      · cases h
        simp
      · rename_i old hfind
        obtain ⟨change, hupdate, hchanges⟩ := bind_eq_ok.mp h
        cases hchanges
        obtain ⟨rfl, identity, -, -⟩ := updateQuotaAccountRow_spec hupdate
        simp [Change.touches, RowOperation.locks, identity, Table.key_of_find hfind]
  | deleteAccount userId =>
      simp only [RowOperation.execute] at h
      split at h
      · cases h
        simp
      · simp [mindoneGuardQuotaAccountLedgerState] at h
  | insertReserve id new => simp [RowOperation.execute, bind_eq_ok] at h
  | updateReserve new =>
      obtain ⟨change, hupdate, hchanges⟩ := bind_eq_ok.mp h
      cases hchanges
      obtain ⟨rfl, -, -⟩ := updateReserveAccountRow_spec hupdate
      simp [Change.touches, RowOperation.locks]
  | deleteReserve =>
      simp [RowOperation.execute, mindoneGuardReserveAccountLedgerState] at h
  | insertLedger table values entryHash =>
      obtain ⟨hash, advanced, validated, hadvance, -, -, rfl⟩ := insertLedger_spec h
      have howner : ∀ lock ∈ advanced.touches, lock ∈ table.ownerLock values.userId := by
        cases table with
        | quotaLedger =>
            obtain ⟨account, user, -, -, -, rfl⟩ := mindoneAdvanceQuotaLedgerHead_spec hadvance
            simp [Change.touches, LedgerTable.ownerLock, user, QuotaAccount.advanceQuota]
        | contributionLedger =>
            obtain ⟨account, user, -, -, -, rfl⟩ :=
              mindoneAdvanceContributionLedgerHead_spec hadvance
            simp [Change.touches, LedgerTable.ownerLock, user,
              QuotaAccount.advanceContribution]
        | reserveLedger =>
            obtain ⟨-, -, rfl⟩ := mindoneAdvanceReserveLedgerHead_spec hadvance
            simp [Change.touches, LedgerTable.ownerLock]
      intro change hchange lock hlock
      simp only [List.mem_cons, List.not_mem_nil, or_false] at hchange
      rcases hchange with rfl | rfl
      · simp [RowOperation.locks, howner lock hlock]
      · simp only [RowOperation.locks, validated, Change.touches, List.mem_append,
          List.mem_cons, List.not_mem_nil, or_false] at hlock ⊢
        tauto
  | mutateLedger table id =>
      simp only [RowOperation.execute] at h
      split at h
      · cases h
      · cases h
        simp
  | lockAccount userId => cases h; simp
  | lockReserve => cases h; simp

theorem executeStatement_confined {operations : List RowOperation}
    (h : executeStatement schema operations db = .ok changes) :
    ∀ change ∈ changes, ∀ lock ∈ change.touches,
      lock ∈ operations.flatMap (RowOperation.locks schema.digest) := by
  induction operations generalizing db changes with
  | nil =>
      cases h
      simp
  | cons operation rest ih =>
      simp only [executeStatement, bind_eq_ok] at h
      obtain ⟨first, hfirst, later, hlater, hchanges⟩ := h
      cases hchanges
      intro change hchange lock hlock
      rw [List.flatMap_cons, List.mem_append]
      rcases List.mem_append.mp hchange with hmem | hmem
      · exact .inl (RowOperation.confined hfirst change hmem lock hlock)
      · exact .inr (ih hlater change hmem lock hlock)

end Confined

/-- The parts of the database are the parts behind its locks. -/
def ledgerParts (digest : List UInt8 → String) :
    (ledgerEngine digest).Parts fun _ : Lock => Part where
  part := fun lock db => db.part lock
  touches := Change.touches
  part_apply := fun {db change lock} h =>
    (db.part_apply change lock).trans (Change.onPart_of_not_mem h db)
  part_congr := fun {db db' change lock} h =>
    (db.part_apply change lock).trans ((congrArg _ h).trans (db'.part_apply change lock).symm)
  confined := executeStatement_confined

/-- Every account's heads match the rows of its ledgers, every row belongs to an
account, and the reserve's head matches its rows. -/
structure LedgerDb.HeadsAuthoritative (db : LedgerDb) : Prop where
  quota : ∀ account ∈ db.accounts.rows,
    HeadMatches account.quotaHead (db.rowsOf .quotaLedger account.userId)
  contribution : ∀ account ∈ db.accounts.rows,
    HeadMatches account.contributionHead (db.rowsOf .contributionLedger account.userId)
  owned : ∀ userId, db.accounts.find userId = none →
    db.rowsOf .quotaLedger userId = [] ∧ db.rowsOf .contributionLedger userId = []
  reserve : HeadMatches db.reserve.head db.reserveLedger

theorem LedgerDb.Consistent.headsAuthoritative {db : LedgerDb} (h : db.Consistent) :
    db.HeadsAuthoritative where
  quota := fun _ hmem => (h.account (Table.find_of_mem hmem)).2.1
  contribution := fun _ hmem => (h.account (Table.find_of_mem hmem)).2.2
  owned := fun _ hfind => h.noRows hfind
  reserve := h.reserve.2

section Reachable
variable {digest : List UInt8 → String} {τ : Type} [DecidableEq τ]
  {sys : System LedgerDb Change Lock τ}

theorem ledgers_consistent (h : (ledgerEngine digest).Reachable LedgerDb.initial sys) :
    (ledgerParts digest).Consistent (fun _ => Part.Holds) sys :=
  Engine.Parts.consistent_of_reachable (ledgerParts digest)
    (fun _ _ _ hdb hexec => LedgerDb.Consistent.statement hdb hexec)
    LedgerDb.consistent_initial h

/-- Under every interleaving the heads are authoritative, in the committed state
and in what each open transaction sees; and a statement that is rejected leaves
the committed state and every transaction's view as they were. -/
theorem ledgerHeads_authoritative
    (h : (ledgerEngine digest).Reachable LedgerDb.initial sys) :
    sys.committed.HeadsAuthoritative ∧
    (∀ t session, sys.sessions t = some session →
      ((ledgerEngine digest).view sys.committed session).HeadsAuthoritative) ∧
    ∀ t session statement error sys', sys.sessions t = some session →
      (ledgerEngine digest).execute statement
        ((ledgerEngine digest).view sys.committed session) = .error error →
      (ledgerEngine digest).Attempt sys t statement sys' →
      sys'.committed = sys.committed ∧ ∀ u,
        (sys'.sessions u).map ((ledgerEngine digest).view sys'.committed) =
          (sys.sessions u).map ((ledgerEngine digest).view sys.committed) := by
  have hconsistent := ledgers_consistent h
  refine ⟨LedgerDb.Consistent.headsAuthoritative hconsistent.committed,
    fun t session hs => LedgerDb.Consistent.headsAuthoritative (hconsistent.views t session hs),
    ?_⟩
  intro t session statement error sys' hs hreject attempt
  exact attempt.unchanged hs hreject

end Reachable

section Sample

/-- The first grant of a user. -/
def sampleGrant : LedgerValues where
  id := .fromU128 1
  userId := some (.fromU128 100)
  requestId := none
  entryType := "bootstrap_grant"
  deltaMicro := 1000000
  balanceBeforeMicro := 0
  balanceAfterMicro := 1000000
  idempotencyKey := "local-dev-bootstrap:00000000-0000-0000-0000-000000000064"
  prevHash := genesisHash
  hashVersion := 2
  metadata := .object [("provider", .string "local-development"),
    ("environment", .string "local-development")]
  auditReference := none
  createdAt := 837597600000000

/-- A second grant whose writer still believes the ledger to be empty. -/
def sampleStaleGrant : LedgerValues :=
  { sampleGrant with
    id := .fromU128 2
    entryType := "operator_grant"
    deltaMicro := 500
    balanceAfterMicro := 500
    idempotencyKey := "operator-grant:late"
    metadata := .object [("reason", .string "second grant"), ("operator_id", .string "ops")]
    createdAt := 837597601000000 }

def sampleGrantText : String :=
  "14:mindone-ledger1:25:quota36:00000000-0000-0000-0000-000000000001" ++
  "36:00000000-0000-0000-0000-0000000000640:" ++
  "56:local-dev-bootstrap:00000000-0000-0000-0000-00000000006415:bootstrap_grant" ++
  "7:10000001:07:100000016:1784282400000000" ++
  "64:00000000000000000000000000000000000000000000000000000000000000001:2" ++
  "11:environment17:local-development8:provider17:local-development"

def sampleStaleGrantText : String :=
  "14:mindone-ledger1:25:quota36:00000000-0000-0000-0000-000000000002" ++
  "36:00000000-0000-0000-0000-0000000000640:19:operator-grant:late14:operator_grant" ++
  "3:5001:03:50016:1784282401000000" ++
  "64:00000000000000000000000000000000000000000000000000000000000000001:2" ++
  "11:operator_id3:ops6:reason12:second grant"

/-- SHA-256 in lower-case hexadecimal, on the bytes of the two grants. -/
def sampleGrantDigest (bytes : List UInt8) : String :=
  if bytes = utf8 sampleGrantText then
    "f2623a1bfa8c35d8cf14f5ef5a2a72fb674bfd050fccc46aad70586ae63310bf"
  else if bytes = utf8 sampleStaleGrantText then
    "1ed06223e890004e84f3684d12a7f60f39306825626f20f6fd8bf76605f79c37"
  else ""

def sampleReferences : References := ⟨fun _ => true, fun _ => true⟩

/-- The changes of the first grant together with its account. -/
def sampleGrantChanges : List Change :=
  let row : LedgerRow := { sampleGrant with
    entryHash := "f2623a1bfa8c35d8cf14f5ef5a2a72fb674bfd050fccc46aad70586ae63310bf" }
  [.putAccount (.new (.fromU128 100)),
    .putAccount ((QuotaAccount.new (.fromU128 100)).advanceQuota sampleGrant row.entryHash),
    .appendRow .quotaLedger row]

/-- One transaction opens an account with a grant and commits; the stale grant of
another is then rejected. -/
theorem ledgerHeads_authoritative_sample :
    let stale : Statement := ⟨sampleReferences, [.insertLedger .quotaLedger sampleStaleGrant
      none]⟩
    ∃ sys : System LedgerDb Change Lock Nat,
      sys.committed.quotaLedger.length = 1 ∧ sys.committed.HeadsAuthoritative ∧
      ∀ sys', (ledgerEngine sampleGrantDigest).Attempt sys 2 stale sys' →
        sys'.committed = sys.committed := by
  intro stale
  let engine := ledgerEngine sampleGrantDigest
  let grant : Statement := ⟨sampleReferences, [.insertAccount (.new (.fromU128 100)),
    .insertLedger .quotaLedger sampleGrant none]⟩
  let session : Session Change Lock := ⟨[], [], false⟩
  let opened : System LedgerDb Change Lock Nat :=
    Engine.withSession ⟨LedgerDb.initial, fun _ => none⟩ 1 (some session)
  have hgrant : engine.execute grant (engine.view opened.committed session) =
      .ok sampleGrantChanges := by
    decide +kernel
  have hstale : engine.execute stale (sampleGrantChanges.foldl LedgerDb.apply
      LedgerDb.initial) = .error (raiseException
        "quota ledger entry does not extend authoritative account state") := by
    decide +kernel
  have hsession : opened.sessions 1 = some session := rfl
  have hfree : engine.Free opened 1 grant := by
    intro other session hne hopen
    simp [opened, Engine.withSession, hne] at hopen
  have h0 : engine.Reachable LedgerDb.initial
      (⟨LedgerDb.initial, fun _ => none⟩ : System LedgerDb Change Lock Nat) := .init
  have h1 : engine.Reachable LedgerDb.initial opened := h0.step (.start (t := 1) rfl)
  have h2 := h1.step (.statement (.accepted hsession rfl hfree hgrant))
  have h3 := h2.step (.commit (t := 1) rfl rfl)
  have h4 := h3.step (.start (t := 2) rfl)
  obtain ⟨committed, -, rejected⟩ := ledgerHeads_authoritative h4
  exact ⟨_, rfl, committed, fun sys' attempt =>
    (rejected 2 ⟨[], [], false⟩ stale _ sys' rfl hstale attempt).1⟩

end Sample

end MindOne.Database
