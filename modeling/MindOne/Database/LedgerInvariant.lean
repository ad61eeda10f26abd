import MindOne.Database.LedgerHeads

/-!
# What a ledger head says about its rows

The stored head of a ledger matches its rows: they form one chain from the zero
hash to the head, no hash is named twice, and count and balance are those of
the rows. A row operation that the database accepts keeps this for every
account and for the reserve.
-/

namespace MindOne.Database

open CheckedArithmetic Accounting KeyedTable

/-- Ledger rows chain through `prevHash` and `entryHash`. -/
def rowLinks : HashChain.Links LedgerRow String where
  previous := fun row => row.prevHash
  digest := fun row => row.entryHash

/-- The head of a ledger agrees with the rows of the ledger. -/
structure HeadMatches (head : LedgerHead) (rows : List LedgerRow) : Prop where
  linked : rowLinks.Linked genesisHash rows
  hash : head.hash = rowLinks.head genesisHash rows
  count : head.count = rows.length
  balanceSum : head.balance = (rows.map fun row => row.deltaMicro).sum
  balanceLast : head.balance = (rows.getLast?.map fun row => row.balanceAfterMicro).getD 0
  hashes : (rows.map fun row => row.entryHash).Nodup
  unforked : (rows.map fun row => row.prevHash).Nodup
  notGenesis : ∀ row ∈ rows, row.entryHash ≠ genesisHash

theorem HeadMatches.empty : HeadMatches ⟨genesisHash, 0, 0⟩ [] :=
  ⟨trivial, rfl, rfl, rfl, rfl, .nil, .nil, fun _ h => nomatch h⟩

/-- A row that extends the head, under a hash not used before, moves the head to itself. -/
theorem HeadMatches.append {head : LedgerHead} {rows : List LedgerRow} {row : LedgerRow}
    (h : HeadMatches head rows) (previous : row.prevHash = head.hash)
    (before : row.balanceBeforeMicro = head.balance)
    (after : row.balanceAfterMicro = row.balanceBeforeMicro + row.deltaMicro)
    (notGenesis : row.entryHash ≠ genesisHash)
    (fresh : ∀ other ∈ rows, other.entryHash ≠ row.entryHash) :
    HeadMatches ⟨row.entryHash, head.count + 1, row.balanceAfterMicro⟩ (rows ++ [row]) := by
  have hlinked : rowLinks.Linked genesisHash (rows ++ [row]) :=
    (rowLinks.linked_append rows row).mpr ⟨h.linked, previous.trans h.hash⟩
  have hhashes : ((rows ++ [row]).map fun row => row.entryHash).Nodup := by
    rw [List.map_append, List.nodup_append]
    refine ⟨h.hashes, List.nodup_singleton _, ?_⟩
    rintro a ha b hb rfl
    obtain ⟨other, hother, hsame⟩ := List.mem_map.mp ha
    exact fresh other hother (hsame.trans (by simpa using hb))
  have hgenesis : ∀ other ∈ rows ++ [row], other.entryHash ≠ genesisHash := by
    intro other hother
    rcases List.mem_append.mp hother with hmem | hmem
    · exact h.notGenesis other hmem
    · rw [List.mem_singleton.mp hmem]
      exact notGenesis
  exact {
    linked := hlinked
    hash := (rowLinks.head_append rows row).symm
    count := by simp [h.count]
    balanceSum := by simp [after, before, h.balanceSum]
    balanceLast := by simp
    hashes := hhashes
    unforked := rowLinks.nodup_previous hlinked hhashes hgenesis
    notGenesis := hgenesis }

/-- What an advance trigger has checked when it returns a new head. -/
theorem advanceHead_spec {label : String} {head new : LedgerHead} {ledger : List LedgerRow}
    {values : LedgerValues} {entryHash : String}
    (h : advanceHead label head ledger values entryHash = .ok new) :
    entryHash ≠ genesisHash ∧ values.prevHash = head.hash ∧
      values.balanceBeforeMicro = head.balance ∧
      values.balanceAfterMicro = values.balanceBeforeMicro + values.deltaMicro ∧
      new = ⟨entryHash, head.count + 1, values.balanceAfterMicro⟩ := by
  simp only [advanceHead, bind_eq_ok, rejectIf_eq_ok, toBigint_eq_ok, exists_const, not_or,
    not_not] at h
  obtain ⟨_, -, ⟨genesis, previous, before⟩, _, ⟨-, rfl⟩, after, _, ⟨-, rfl⟩, hnew⟩ := h
  cases hnew
  exact ⟨genesis, previous, before, after, rfl⟩

theorem QuotaAccount.check_eq_ok {account : QuotaAccount} {u : Unit} :
    account.check = .ok u ↔ 0 ≤ account.spendableMicro ∧ 0 ≤ account.reservedMicro ∧
      0 ≤ account.contributionMicro ∧ account.reservedMicro ≤ account.spendableMicro ∧
      headShape account.quotaHead ∧ headShape account.contributionHead := by
  simp only [QuotaAccount.check, bind_eq_ok, rejectIf_eq_ok, exists_const, not_lt, not_not]

/-- An accepted account update keeps the user, satisfies the constraints and, from
outside a ledger trigger, leaves both heads alone. -/
theorem updateQuotaAccountRow_spec {depth : Nat} {old new : QuotaAccount} {change : Change}
    (h : updateQuotaAccountRow depth old new = .ok change) :
    change = .putAccount new ∧ new.userId = old.userId ∧ new.check = .ok () ∧
      (depth ≠ 2 → new.quotaHead = old.quotaHead ∧
        new.contributionHead = old.contributionHead) := by
  simp only [updateQuotaAccountRow, mindoneGuardQuotaAccountLedgerState, bind_eq_ok,
    rejectIf_eq_ok, exists_const, not_not, not_and, not_or] at h
  obtain ⟨⟨identity, guard⟩, _, checked, hchange⟩ := h
  cases hchange
  refine ⟨rfl, identity, checked, fun hdepth => ?_⟩
  obtain ⟨spendable, contribution, head, count, head', count'⟩ := guard hdepth
  exact ⟨by simp [QuotaAccount.quotaHead, spendable, head, count],
    by simp [QuotaAccount.contributionHead, contribution, head', count']⟩

theorem updateReserveAccountRow_spec {depth : Nat} {old new : ReserveAccount}
    {change : Change} (h : updateReserveAccountRow depth old new = .ok change) :
    change = .putReserve new ∧ new.check = .ok () ∧
      (depth ≠ 2 → new.head = old.head) := by
  simp only [updateReserveAccountRow, mindoneGuardReserveAccountLedgerState, bind_eq_ok,
    rejectIf_eq_ok, exists_const, not_not, not_and, not_or] at h
  obtain ⟨guard, _, checked, hchange⟩ := h
  cases hchange
  refine ⟨rfl, checked, fun hdepth => ?_⟩
  obtain ⟨balance, head, count⟩ := guard hdepth
  simp [ReserveAccount.head, balance, head, count]

theorem selectAccount_eq_ok {db : LedgerDb} {userId : Option Uuid} {account : QuotaAccount} :
    db.selectAccount userId = .ok account ↔
      userId = some account.userId ∧ db.accounts.find account.userId = some account := by
  cases userId with
  | none => simp [LedgerDb.selectAccount]
  | some u =>
      cases hfind : db.accounts.find u with
      | none =>
          simp only [LedgerDb.selectAccount, Option.bind_some, hfind, reduceCtorEq, false_iff,
            Option.some.injEq, not_and]
          rintro rfl
          simp [hfind]
      | some found =>
          have hkey := Table.key_of_find hfind
          simp only [LedgerDb.selectAccount, Option.bind_some, hfind, Except.ok.injEq,
            Option.some.injEq]
          constructor
          · rintro rfl
            exact ⟨hkey.symm, hkey ▸ hfind⟩
          · rintro ⟨rfl, hsome⟩
            exact Option.some.inj (hfind.symm.trans hsome)

/-- The row extends the head: what every advance trigger checks. -/
structure Extends (head : LedgerHead) (values : LedgerValues) (entryHash : String) : Prop where
  notGenesis : entryHash ≠ genesisHash
  previous : values.prevHash = head.hash
  before : values.balanceBeforeMicro = head.balance
  after : values.balanceAfterMicro = values.balanceBeforeMicro + values.deltaMicro

/-- The account after its quota ledger advanced. -/
def QuotaAccount.advanceQuota (account : QuotaAccount) (values : LedgerValues)
    (entryHash : String) : QuotaAccount :=
  { account with
    spendableMicro := values.balanceAfterMicro
    quotaLedgerHeadHash := entryHash
    quotaLedgerEntryCount := account.quotaLedgerEntryCount + 1 }

/-- The account after its contribution ledger advanced. -/
def QuotaAccount.advanceContribution (account : QuotaAccount) (values : LedgerValues)
    (entryHash : String) : QuotaAccount :=
  { account with
    contributionMicro := values.balanceAfterMicro
    contributionLedgerHeadHash := entryHash
    contributionLedgerEntryCount := account.contributionLedgerEntryCount + 1 }

/-- The reserve after its ledger advanced. -/
def ReserveAccount.advance (account : ReserveAccount) (values : LedgerValues)
    (entryHash : String) : ReserveAccount :=
  ⟨values.balanceAfterMicro, entryHash, account.ledgerEntryCount + 1⟩

section Advance
variable {db : LedgerDb} {values : LedgerValues} {entryHash : String} {change : Change}

theorem mindoneAdvanceQuotaLedgerHead_spec
    (h : mindoneAdvanceQuotaLedgerHead db values entryHash = .ok change) :
    ∃ account, values.userId = some account.userId ∧
      db.accounts.find account.userId = some account ∧
      Extends account.quotaHead values entryHash ∧
      (account.advanceQuota values entryHash).check = .ok () ∧
      change = .putAccount (account.advanceQuota values entryHash) := by
  simp only [mindoneAdvanceQuotaLedgerHead, bind_eq_ok, selectAccount_eq_ok] at h
  obtain ⟨account, ⟨user, hfind⟩, head, hhead, hupdate⟩ := h
  obtain ⟨genesis, previous, before, after, rfl⟩ := advanceHead_spec hhead
  obtain ⟨rfl, -, checked, -⟩ := updateQuotaAccountRow_spec hupdate
  exact ⟨account, user, hfind, ⟨genesis, previous, before, after⟩, checked, rfl⟩

theorem mindoneAdvanceContributionLedgerHead_spec
    (h : mindoneAdvanceContributionLedgerHead db values entryHash = .ok change) :
    ∃ account, values.userId = some account.userId ∧
      db.accounts.find account.userId = some account ∧
      Extends account.contributionHead values entryHash ∧
      (account.advanceContribution values entryHash).check = .ok () ∧
      change = .putAccount (account.advanceContribution values entryHash) := by
  simp only [mindoneAdvanceContributionLedgerHead, bind_eq_ok, selectAccount_eq_ok] at h
  obtain ⟨account, ⟨user, hfind⟩, head, hhead, hupdate⟩ := h
  obtain ⟨genesis, previous, before, after, rfl⟩ := advanceHead_spec hhead
  obtain ⟨rfl, -, checked, -⟩ := updateQuotaAccountRow_spec hupdate
  exact ⟨account, user, hfind, ⟨genesis, previous, before, after⟩, checked, rfl⟩

theorem mindoneAdvanceReserveLedgerHead_spec
    (h : mindoneAdvanceReserveLedgerHead db values entryHash = .ok change) :
    Extends db.reserve.head values entryHash ∧
      (db.reserve.advance values entryHash).check = .ok () ∧
      change = .putReserve (db.reserve.advance values entryHash) := by
  simp only [mindoneAdvanceReserveLedgerHead, bind_eq_ok] at h
  obtain ⟨head, hhead, hupdate⟩ := h
  obtain ⟨genesis, previous, before, after, rfl⟩ := advanceHead_spec hhead
  obtain ⟨rfl, checked, -⟩ := updateReserveAccountRow_spec hupdate
  exact ⟨⟨genesis, previous, before, after⟩, checked, rfl⟩

end Advance

/-- No row of the table has the id, the key or the hash of the new row. -/
theorem checkUnique_eq_ok {table : LedgerTable} {existing : List LedgerRow} {row : LedgerRow}
    {u : Unit} (h : table.checkUnique existing row = .ok u) :
    ∀ other ∈ existing, other.id ≠ row.id ∧ other.idempotencyKey ≠ row.idempotencyKey ∧
      other.entryHash ≠ row.entryHash := by
  simp only [LedgerTable.checkUnique, bind_eq_ok, rejectIf_eq_ok, exists_const, not_exists,
    not_and] at h
  intro other hother
  exact ⟨h.1 other hother, h.2.1 other hother, h.2.2.1 other hother⟩

/-- The new row of an accepted ledger insert, with what each stage has found. -/
theorem insertLedger_spec {schema : Schema} {db : LedgerDb} {table : LedgerTable}
    {values : LedgerValues} {entryHash : Option String} {changes : List Change}
    (h : insertLedger schema db table values entryHash = .ok changes) :
    ∃ hash advanced,
      mindoneValidateCanonicalLedgerHash schema.digest table values entryHash = .ok hash ∧
      table.advance db values hash = .ok advanced ∧
      table.checkColumns { values with entryHash := hash } = .ok () ∧
      table.checkUnique (db.table table) { values with entryHash := hash } = .ok () ∧
      changes = [advanced, .appendRow table { values with entryHash := hash }] := by
  simp only [insertLedger, bind_eq_ok, rejectIf_eq_ok, exists_const] at h
  obtain ⟨hash, validated, advanced, hadvance, _, columns, _, unique, -, hchanges⟩ := h
  cases hchanges
  exact ⟨hash, advanced, validated, hadvance, columns, unique, rfl⟩

/-- An account with the rows of its two ledgers. -/
structure AccountLedgers where
  account : Option QuotaAccount
  quota : List LedgerRow
  contribution : List LedgerRow

/-- Both heads match their rows; without an account there are no rows. -/
def AccountLedgers.Consistent (ledgers : AccountLedgers) : Prop :=
  match ledgers.account with
  | none => ledgers.quota = [] ∧ ledgers.contribution = []
  | some account => account.check = .ok () ∧
      HeadMatches account.quotaHead ledgers.quota ∧
      HeadMatches account.contributionHead ledgers.contribution

/-- What a statement locks: the row of an account, the row of the reserve, and
the entries of the unique indexes. -/
inductive Lock where
  | account (userId : Uuid)
  | reserve
  | rowId (table : LedgerTable) (id : Uuid)
  | idempotencyKey (table : LedgerTable) (key : String)
  | entryHash (table : LedgerTable) (hash : String)
  deriving DecidableEq

/-- The part of the database behind a lock. -/
inductive Part where
  | account (ledgers : AccountLedgers)
  | reserve (account : ReserveAccount) (rows : List LedgerRow)
  | indexed (rows : List LedgerRow)

def LedgerDb.part (db : LedgerDb) : Lock → Part
  | .account userId => .account ⟨db.accounts.find userId, db.rowsOf .quotaLedger userId,
      db.rowsOf .contributionLedger userId⟩
  | .reserve => .reserve db.reserve db.reserveLedger
  | .rowId table id => .indexed ((db.table table).filter fun row => row.id = id)
  | .idempotencyKey table key =>
      .indexed ((db.table table).filter fun row => row.idempotencyKey = key)
  | .entryHash table hash => .indexed ((db.table table).filter fun row => row.entryHash = hash)

/-- What holds of each part: heads match rows, and indexed values are unique. -/
def Part.Holds : Part → Prop
  | .account ledgers => ledgers.Consistent
  | .reserve row rows => row.check = .ok () ∧ HeadMatches row.head rows
  | .indexed rows => rows.length ≤ 1

/-- Every part of the database is as it should be. -/
def LedgerDb.Consistent (db : LedgerDb) : Prop := ∀ lock, (db.part lock).Holds

/-- The lock on the account row that a ledger row belongs to. -/
def LedgerTable.ownerLock : LedgerTable → Option Uuid → List Lock
  | .reserveLedger, _ => [.reserve]
  | _, some userId => [.account userId]
  | _, none => []

def Change.touches : Change → List Lock
  | .putAccount row => [.account row.userId]
  | .putReserve _ => [.reserve]
  | .appendRow table row => table.ownerLock row.userId ++
      [.rowId table row.id, .idempotencyKey table row.idempotencyKey,
        .entryHash table row.entryHash]

/-- The effect of a change on one part, as a function of that part. -/
def Change.onPart (change : Change) (lock : Lock) (part : Part) : Part :=
  match change, lock, part with
  | .putAccount row, .account userId, .account ledgers =>
      if row.userId = userId then .account { ledgers with account := some row }
      else .account ledgers
  | .putReserve row, .reserve, .reserve _ rows => .reserve row rows
  | .appendRow .quotaLedger row, .account userId, .account ledgers =>
      if row.userId = some userId then
        .account { ledgers with quota := ledgers.quota ++ [row] }
      else .account ledgers
  | .appendRow .contributionLedger row, .account userId, .account ledgers =>
      if row.userId = some userId then
        .account { ledgers with contribution := ledgers.contribution ++ [row] }
      else .account ledgers
  | .appendRow .reserveLedger row, .reserve, .reserve account rows =>
      .reserve account (rows ++ [row])
  | .appendRow written row, .rowId table id, .indexed rows =>
      if written = table ∧ row.id = id then .indexed (rows ++ [row]) else .indexed rows
  | .appendRow written row, .idempotencyKey table key, .indexed rows =>
      if written = table ∧ row.idempotencyKey = key then .indexed (rows ++ [row])
      else .indexed rows
  | .appendRow written row, .entryHash table hash, .indexed rows =>
      if written = table ∧ row.entryHash = hash then .indexed (rows ++ [row])
      else .indexed rows
  | _, _, part => part

theorem LedgerDb.table_appendRow (db : LedgerDb) (written table : LedgerTable)
    (row : LedgerRow) :
    (db.apply (.appendRow written row)).table table =
      if written = table then db.table table ++ [row] else db.table table := by
  cases written <;> cases table <;> rfl

theorem LedgerDb.filter_appendRow (db : LedgerDb) (written table : LedgerTable)
    (row : LedgerRow) (p : LedgerRow → Bool) :
    ((db.apply (.appendRow written row)).table table).filter p =
      if written = table ∧ p row = true then (db.table table).filter p ++ [row]
      else (db.table table).filter p := by
  rw [LedgerDb.table_appendRow]
  by_cases ht : written = table
  · by_cases hp : p row = true <;> simp [ht, hp]
  · simp [ht]

theorem LedgerDb.accounts_appendRow (db : LedgerDb) (written : LedgerTable)
    (row : LedgerRow) : (db.apply (.appendRow written row)).accounts = db.accounts := by
  cases written <;> rfl

theorem LedgerDb.part_apply (db : LedgerDb) (change : Change) (lock : Lock) :
    (db.apply change).part lock = change.onPart lock (db.part lock) := by
  cases change with
  | putAccount row =>
      cases lock with
      | account userId =>
          simp only [LedgerDb.part, LedgerDb.apply, Change.onPart, LedgerDb.rowsOf,
            LedgerDb.table, Table.find_set, eq_comm (a := userId)]
          split <;> rfl
      | reserve => rfl
      | rowId table id => cases table <;> rfl
      | idempotencyKey table key => cases table <;> rfl
      | entryHash table hash => cases table <;> rfl
  | putReserve row =>
      cases lock with
      | account userId => rfl
      | reserve => rfl
      | rowId table id => cases table <;> rfl
      | idempotencyKey table key => cases table <;> rfl
      | entryHash table hash => cases table <;> rfl
  | appendRow written row =>
      cases lock with
      | account userId =>
          simp only [LedgerDb.part, LedgerDb.rowsOf, LedgerDb.filter_appendRow,
            LedgerDb.accounts_appendRow, decide_eq_true_eq]
          cases written <;> by_cases h : row.userId = some userId <;> simp [Change.onPart, h]
      | reserve => cases written <;> rfl
      | rowId table id =>
          simp only [LedgerDb.part, LedgerDb.filter_appendRow, decide_eq_true_eq]
          cases written <;> simp only [Change.onPart] <;> split <;> rfl
      | idempotencyKey table key =>
          simp only [LedgerDb.part, LedgerDb.filter_appendRow, decide_eq_true_eq]
          cases written <;> simp only [Change.onPart] <;> split <;> rfl
      | entryHash table hash =>
          simp only [LedgerDb.part, LedgerDb.filter_appendRow, decide_eq_true_eq]
          cases written <;> simp only [Change.onPart] <;> split <;> rfl

/-- A change acts only on the parts it touches. -/
theorem Change.onPart_of_not_mem {change : Change} {lock : Lock} (h : lock ∉ change.touches)
    (db : LedgerDb) : change.onPart lock (db.part lock) = db.part lock := by
  cases change with
  | putAccount row =>
      cases lock with
      | account userId =>
          have hne : row.userId ≠ userId := by
            rintro rfl
            exact h (by simp [Change.touches])
          simp [Change.onPart, LedgerDb.part, hne]
      | _ => rfl
  | putReserve row =>
      cases lock with
      | reserve => exact absurd (by simp [Change.touches]) h
      | _ => rfl
  | appendRow table row =>
      simp only [Change.touches, List.mem_append, List.mem_cons, List.not_mem_nil, or_false,
        not_or] at h
      obtain ⟨howner, hid, hkey, hhash⟩ := h
      cases lock with
      | account userId =>
          have hne : table ≠ .reserveLedger → row.userId ≠ some userId := by
            intro ht hu
            cases table <;> simp_all [LedgerTable.ownerLock]
          cases table <;> simp [Change.onPart, LedgerDb.part, hne]
      | reserve =>
          cases table with
          | reserveLedger => exact absurd (by simp [LedgerTable.ownerLock]) howner
          | _ => rfl
      | rowId written id =>
          have hne : ¬ (table = written ∧ row.id = id) := by
            rintro ⟨rfl, rfl⟩
            exact hid rfl
          cases table <;> simp [Change.onPart, LedgerDb.part, hne]
      | idempotencyKey written key =>
          have hne : ¬ (table = written ∧ row.idempotencyKey = key) := by
            rintro ⟨rfl, rfl⟩
            exact hkey rfl
          cases table <;> simp [Change.onPart, LedgerDb.part, hne]
      | entryHash written hash =>
          have hne : ¬ (table = written ∧ row.entryHash = hash) := by
            rintro ⟨rfl, rfl⟩
            exact hhash rfl
          cases table <;> simp [Change.onPart, LedgerDb.part, hne]

namespace LedgerDb
variable {db : LedgerDb}

theorem Consistent.account (h : db.Consistent) {account : QuotaAccount}
    (hfind : db.accounts.find account.userId = some account) :
    account.check = .ok () ∧
      HeadMatches account.quotaHead (db.rowsOf .quotaLedger account.userId) ∧
      HeadMatches account.contributionHead (db.rowsOf .contributionLedger account.userId) := by
  have := h (.account account.userId)
  simpa only [part, Part.Holds, AccountLedgers.Consistent, hfind] using this

theorem Consistent.noRows (h : db.Consistent) {userId : Uuid}
    (hfind : db.accounts.find userId = none) :
    db.rowsOf .quotaLedger userId = [] ∧ db.rowsOf .contributionLedger userId = [] := by
  have := h (.account userId)
  simpa only [part, Part.Holds, AccountLedgers.Consistent, hfind] using this

theorem Consistent.reserve (h : db.Consistent) :
    db.reserve.check = .ok () ∧ HeadMatches db.reserve.head db.reserveLedger :=
  h .reserve

/-- Writing an account keeps everything when its heads match its rows. -/
theorem Consistent.putAccount (h : db.Consistent) {row : QuotaAccount}
    (hrow : row.check = .ok () ∧
      HeadMatches row.quotaHead (db.rowsOf .quotaLedger row.userId) ∧
      HeadMatches row.contributionHead (db.rowsOf .contributionLedger row.userId)) :
    (db.apply (.putAccount row)).Consistent := by
  intro lock
  by_cases hlock : lock = .account row.userId
  · subst hlock
    rw [part_apply]
    simpa [Change.onPart, part, Part.Holds, AccountLedgers.Consistent] using hrow
  · rw [part_apply, Change.onPart_of_not_mem (by simp [Change.touches, hlock])]
    exact h lock

theorem Consistent.putReserve (h : db.Consistent) {row : ReserveAccount}
    (hrow : row.check = .ok () ∧ HeadMatches row.head db.reserveLedger) :
    (db.apply (.putReserve row)).Consistent := by
  intro lock
  by_cases hlock : lock = .reserve
  · subst hlock
    exact hrow
  · rw [part_apply, Change.onPart_of_not_mem (by simp [Change.touches, hlock])]
    exact h lock

/-- An index entry stays unique when the new row is not in it yet. -/
theorem indexed_append {rows : List LedgerRow} {row : LedgerRow} {p : LedgerRow → Bool}
    (h : ((rows.filter p).length) ≤ 1) (fresh : p row = true → ∀ other ∈ rows, p other = false) :
    ((rows ++ [row]).filter p).length ≤ 1 := by
  by_cases hp : p row = true
  · have hnone : rows.filter p = [] :=
      List.filter_eq_nil_iff.mpr fun other hother => by simp [fresh hp other hother]
    simp [List.filter_append, hnone, hp]
  · simpa [List.filter_append, hp] using h

/-- The indexes stay unique under a row that passed the unique checks. -/
theorem indexed_appendRow {written : LedgerTable} {row : LedgerRow}
    (fresh : ∀ other ∈ db.table written, other.id ≠ row.id ∧
      other.idempotencyKey ≠ row.idempotencyKey ∧ other.entryHash ≠ row.entryHash)
    {lock : Lock} (hlength : (db.part lock).Holds) (hlock : ∀ userId, lock ≠ .account userId)
    (hreserve : lock ≠ .reserve) :
    ((db.apply (.appendRow written row)).part lock).Holds := by
  cases lock with
  | account userId => exact absurd rfl (hlock userId)
  | reserve => exact absurd rfl hreserve
  | rowId table id =>
      simp only [part, Part.Holds, table_appendRow] at hlength ⊢
      split
      · subst_vars
        exact indexed_append hlength fun hid other hother => by
          simpa [← of_decide_eq_true hid] using (fresh other hother).1
      · exact hlength
  | idempotencyKey table key =>
      simp only [part, Part.Holds, table_appendRow] at hlength ⊢
      split
      · subst_vars
        exact indexed_append hlength fun hkey other hother => by
          simpa [← of_decide_eq_true hkey] using (fresh other hother).2.1
      · exact hlength
  | entryHash table hash =>
      simp only [part, Part.Holds, table_appendRow] at hlength ⊢
      split
      · subst_vars
        exact indexed_append hlength fun hhash other hother => by
          simpa [← of_decide_eq_true hhash] using (fresh other hother).2.2
      · exact hlength

theorem table_apply_of_touches {advanced : Change} {owner : Lock}
    (h : advanced.touches = [owner]) (table : LedgerTable) :
    (db.apply advanced).table table = db.table table := by
  cases advanced with
  | putAccount row => cases table <;> rfl
  | putReserve row => cases table <;> rfl
  | appendRow written row =>
      have hlength := congrArg List.length h
      simp [Change.touches] at hlength

/-- Advancing the owner and appending the row keeps everything when the owner's
part is right afterwards and the row is new to the indexes. -/
theorem Consistent.insertRow (h : db.Consistent) {advanced : Change} {table : LedgerTable}
    {row : LedgerRow} {owner : Lock} (howner : table.ownerLock row.userId = [owner])
    (htouches : advanced.touches = [owner])
    (hpart : (((db.apply advanced).apply (.appendRow table row)).part owner).Holds)
    (unique : table.checkUnique (db.table table) row = .ok ()) :
    ((db.apply advanced).apply (.appendRow table row)).Consistent := by
  intro lock
  by_cases hlock : lock = owner
  · exact hlock ▸ hpart
  have hbefore : ((db.apply advanced).part lock).Holds := by
    rw [part_apply, Change.onPart_of_not_mem (by simp [htouches, hlock])]
    exact h lock
  have hfresh := checkUnique_eq_ok unique
  rw [← table_apply_of_touches htouches] at hfresh
  cases lock with
  | account userId =>
      rw [part_apply, Change.onPart_of_not_mem (by simp [Change.touches, howner, hlock])]
      exact hbefore
  | reserve =>
      rw [part_apply, Change.onPart_of_not_mem (by simp [Change.touches, howner, hlock])]
      exact hbefore
  | rowId _ _ => exact indexed_appendRow hfresh hbefore (by simp) (by simp)
  | idempotencyKey _ _ => exact indexed_appendRow hfresh hbefore (by simp) (by simp)
  | entryHash _ _ => exact indexed_appendRow hfresh hbefore (by simp) (by simp)

theorem rowsOf_append {written table : LedgerTable} {row : LedgerRow} {userId : Uuid} :
    (db.apply (.appendRow written row)).rowsOf table userId =
      if written = table ∧ row.userId = some userId then db.rowsOf table userId ++ [row]
      else db.rowsOf table userId := by
  simp only [rowsOf, filter_appendRow, decide_eq_true_eq]

/-- The hash of a row that passed the unique checks is new to every user's rows. -/
theorem fresh_rowsOf {table : LedgerTable} {row : LedgerRow} {userId : Uuid}
    (unique : table.checkUnique (db.table table) row = .ok ()) :
    ∀ other ∈ db.rowsOf table userId, other.entryHash ≠ row.entryHash :=
  fun other hother => (checkUnique_eq_ok unique other (List.mem_filter.mp hother).1).2.2

/-- An accepted ledger insert keeps every head matched to its rows. -/
theorem Consistent.insertLedger (h : db.Consistent) {schema : Schema} {table : LedgerTable}
    {values : LedgerValues} {entryHash : Option String} {changes : List Change}
    (hinsert : Database.insertLedger schema db table values entryHash = .ok changes) :
    (changes.foldl LedgerDb.apply db).Consistent := by
  obtain ⟨hash, advanced, -, hadvance, -, unique, rfl⟩ := insertLedger_spec hinsert
  simp only [List.foldl_cons, List.foldl_nil]
  cases table with
  | quotaLedger =>
      obtain ⟨account, user, hfind, extends_, checked, rfl⟩ :=
        mindoneAdvanceQuotaLedgerHead_spec hadvance
      obtain ⟨-, hquota, hcontribution⟩ := h.account hfind
      have hhead := hquota.append extends_.previous extends_.before extends_.after
        extends_.notGenesis (fresh_rowsOf unique)
      have howner : LedgerTable.quotaLedger.ownerLock values.userId = [.account account.userId] := by
        simp [LedgerTable.ownerLock, user]
      refine h.insertRow howner rfl ?_ unique
      simp only [part, Part.Holds, AccountLedgers.Consistent, accounts_appendRow,
        rowsOf_append, user, and_self, if_true, reduceCtorEq, false_and, if_false]
      simp only [apply, QuotaAccount.advanceQuota, Table.find_set, if_true]
      exact ⟨checked, hhead, hcontribution⟩
  | contributionLedger =>
      obtain ⟨account, user, hfind, extends_, checked, rfl⟩ :=
        mindoneAdvanceContributionLedgerHead_spec hadvance
      obtain ⟨-, hquota, hcontribution⟩ := h.account hfind
      have hhead := hcontribution.append extends_.previous extends_.before extends_.after
        extends_.notGenesis (fresh_rowsOf unique)
      have howner : LedgerTable.contributionLedger.ownerLock values.userId =
          [.account account.userId] := by
        simp [LedgerTable.ownerLock, user]
      refine h.insertRow howner rfl ?_ unique
      simp only [part, Part.Holds, AccountLedgers.Consistent, accounts_appendRow,
        rowsOf_append, user, and_self, if_true, reduceCtorEq, false_and, if_false]
      simp only [apply, QuotaAccount.advanceContribution, Table.find_set, if_true]
      exact ⟨checked, hquota, hhead⟩
  | reserveLedger =>
      obtain ⟨extends_, checked, rfl⟩ := mindoneAdvanceReserveLedgerHead_spec hadvance
      let row : LedgerRow := { values with entryHash := hash }
      have hfresh : ∀ other ∈ db.reserveLedger, other.entryHash ≠ row.entryHash :=
        fun other hother => (checkUnique_eq_ok unique other hother).2.2
      have hhead : HeadMatches (db.reserve.advance values hash).head (db.reserveLedger ++ [row]) :=
        h.reserve.2.append extends_.previous extends_.before extends_.after
          extends_.notGenesis hfresh
      have howner : LedgerTable.reserveLedger.ownerLock values.userId = [.reserve] := rfl
      exact h.insertRow howner rfl ⟨checked, hhead⟩ unique

/-- A new account passes the guard only in its initial state. -/
theorem guardInsert_spec {new : QuotaAccount} {u : Unit}
    (h : mindoneGuardQuotaAccountLedgerState 1 (.insert new) = .ok u) :
    new = .new new.userId := by
  simp only [mindoneGuardQuotaAccountLedgerState, rejectIf_eq_ok, not_or, not_not] at h
  obtain ⟨spendable, reserved, contribution, head, count, head', count'⟩ := h
  cases new
  simp only at spendable reserved contribution head count head' count'
  subst_vars
  rfl

/-- Every row operation that the database accepts keeps every part as it should be. -/
theorem Consistent.operation (h : db.Consistent) {schema : Schema} {operation : RowOperation}
    {changes : List Change} (hexec : operation.execute schema db = .ok changes) :
    (changes.foldl LedgerDb.apply db).Consistent := by
  cases operation with
  | insertAccount new =>
      simp only [RowOperation.execute, bind_eq_ok, rejectIf_eq_ok, exists_const,
        not_not] at hexec
      obtain ⟨_, guard, _, checked, absent, -, hchanges⟩ := hexec
      cases hchanges
      obtain ⟨hquota, hcontribution⟩ := h.noRows absent
      refine h.putAccount ⟨checked, ?_⟩
      rw [hquota, hcontribution, guardInsert_spec guard]
      exact ⟨HeadMatches.empty, HeadMatches.empty⟩
  | updateAccount userId new =>
      simp only [RowOperation.execute] at hexec
      split at hexec
      · cases hexec
        exact h
      · rename_i old hfind
        obtain ⟨change, hupdate, hchanges⟩ := bind_eq_ok.mp hexec
        cases hchanges
        obtain ⟨rfl, identity, checked, guard⟩ := updateQuotaAccountRow_spec hupdate
        obtain ⟨hquota, hcontribution⟩ := guard (by decide)
        have hkey := Table.key_of_find hfind
        obtain ⟨-, hmatches⟩ := h.account (hkey.symm ▸ hfind)
        exact h.putAccount ⟨checked, by rw [hquota, hcontribution, identity]; exact hmatches⟩
  | deleteAccount userId =>
      simp only [RowOperation.execute] at hexec
      split at hexec
      · cases hexec
        exact h
      · simp [mindoneGuardQuotaAccountLedgerState] at hexec
  | insertReserve id new => simp [RowOperation.execute, bind_eq_ok] at hexec
  | updateReserve new =>
      obtain ⟨change, hupdate, hchanges⟩ := bind_eq_ok.mp hexec
      cases hchanges
      obtain ⟨rfl, checked, guard⟩ := updateReserveAccountRow_spec hupdate
      exact h.putReserve ⟨checked, by rw [guard (by decide)]; exact h.reserve.2⟩
  | deleteReserve =>
      simp [RowOperation.execute, mindoneGuardReserveAccountLedgerState] at hexec
  | insertLedger table values entryHash => exact h.insertLedger hexec
  | mutateLedger table id =>
      simp only [RowOperation.execute] at hexec
      split at hexec
      · cases hexec
      · cases hexec
        exact h
  | lockAccount userId =>
      cases hexec
      exact h
  | lockReserve =>
      cases hexec
      exact h

theorem Consistent.statement {schema : Schema} {operations : List RowOperation}
    {changes : List Change} (h : db.Consistent)
    (hexec : executeStatement schema operations db = .ok changes) :
    (changes.foldl LedgerDb.apply db).Consistent := by
  induction operations generalizing db changes with
  | nil =>
      cases hexec
      exact h
  | cons operation rest ih =>
      simp only [executeStatement, bind_eq_ok] at hexec
      obtain ⟨first, hfirst, later, hlater, hchanges⟩ := hexec
      cases hchanges
      rw [List.foldl_append]
      exact ih (h.operation hfirst) hlater

theorem consistent_initial : LedgerDb.initial.Consistent := by
  intro lock
  cases lock with
  | account userId => exact ⟨rfl, rfl⟩
  | reserve => exact ⟨by decide +kernel, HeadMatches.empty⟩
  | rowId table id => cases table <;> exact Nat.zero_le 1
  | idempotencyKey table key => cases table <;> exact Nat.zero_le 1
  | entryHash table hash => cases table <;> exact Nat.zero_le 1

end LedgerDb

end MindOne.Database
