import MindOne.Accounting.BalanceAudit
import MindOne.Database.LedgerTransactions
import MindOne.Quota.History

/-!
# Stored ledgers as chains

Several processes append to the ledgers of one database, each under the lock of
the account and each with a clock of its own. The rows of a ledger are read back
in link order and turned into entries again. What the triggers let in is what
`validateChain` accepts, except for its rule that instants never go back.
-/

namespace MindOne.Quota

open CheckedArithmetic Accounting Database Coordinator RowLocks KeyedTable

/-- An entry that the service has built, and the row that it inserts for it. -/
structure BuiltRow (digest : List UInt8 → String) where
  entry : LedgerEntry
  table : LedgerTable
  entryType : String
  stored : List (String × JsonbValue)
  auditReference : Option String
  built : LedgerEntry.new digest entry.id entry.accountId entry.requestId entry.idempotencyKey
    entry.kind entry.amountMicro entry.balanceBeforeMicro entry.balanceAfterMicro
    entry.createdAt entry.previousHash entry.metadata = .ok entry
  written : WrittenAs entry table entryType
  enumerated : stored.Perm (ledgerMetadataJson entry.metadata)

namespace BuiltRow
variable {digest : List UInt8 → String} (self : BuiltRow digest)

def values : LedgerValues :=
  storedValues self.entry self.table self.entryType self.stored self.auditReference

def row : LedgerRow := { self.values with entryHash := self.entry.hash }

/-- The reading of the writer's clock, as it is stored. -/
def reading : Int := sqlxTimestamptz self.entry.createdAt

theorem valid : self.entry.validate digest = .ok () := (LedgerEntry.new_eq_ok.mp self.built).1

end BuiltRow

/-- What the service asks of the database: it inserts ledger rows for entries it has
built, and may run any other statement. -/
inductive ServiceOperation (digest : List UInt8 → String) where
  | append (row : BuiltRow digest)
  | other (operation : RowOperation)
      (notInsert : ∀ table values hash, operation ≠ .insertLedger table values hash)

structure ServiceStatement (digest : List UInt8 → String) where
  references : References
  operations : List (ServiceOperation digest)

section Engine
variable (digest : List UInt8 → String)

def ServiceOperation.toRow : ServiceOperation digest → RowOperation
  | .append row => .insertLedger row.table row.values (some row.entry.hash)
  | .other operation _ => operation

def ServiceStatement.toStatement (statement : ServiceStatement digest) :
    Database.Statement :=
  ⟨statement.references, statement.operations.map (ServiceOperation.toRow digest)⟩

/-- The ledger database with the processes of the service as its only clients. -/
def serviceEngine : Engine LedgerDb Change Lock (ServiceStatement digest) SqlError :=
  (ledgerEngine digest).comap (ServiceStatement.toStatement digest)

def LedgerTable.namespace : LedgerTable → LedgerNamespace
  | .quotaLedger => .quota
  | .contributionLedger => .contribution
  | .reserveLedger => .reserve

/-- A stored row as an entry again: the response for it, and the entry that a client
rebuilds from the response. -/
def readEntry (table : LedgerTable) (row : LedgerRow) : Option LedgerEntry := do
  let accountId ← (table.accountId row.toLedgerValues).toOption
  let response ← (HistoryRow.responseIn ⟨table.scope, accountId, row, none⟩
    (LedgerTable.namespace table)).toOption
  let kind ← (ledgerKind response).toOption
  return response.canonical kind

end Engine

/-- The rows of the ledger of one account; the reserve has a single one. -/
def ledgerRows (db : LedgerDb) : LedgerTable → Uuid → List LedgerRow
  | .quotaLedger, userId => db.rowsOf .quotaLedger userId
  | .contributionLedger, userId => db.rowsOf .contributionLedger userId
  | .reserveLedger, _ => db.reserveLedger

section Reading

/-- A stored instant is read back as the microsecond it was stored as. -/
theorem decodeTimestamptz_stored (instant : OffsetDateTime) :
    ∃ decoded, decodeTimestamptz (sqlxTimestamptz instant) = some decoded ∧
      decoded.unixTimestampNanos =
        sqlxTimestamptz instant * 1000 + postgresEpochUnixSeconds * 1000000000 := by
  have hrange := instant.inRange
  have hdecoded : -377705210399000000000 ≤
        sqlxTimestamptz instant * 1000 + postgresEpochUnixSeconds * 1000000000 ∧
      sqlxTimestamptz instant * 1000 + postgresEpochUnixSeconds * 1000000000 <
        253402394399000000000 := by
    simp only [sqlxTimestamptz, postgresEpochUnixSeconds, Int.tdiv_eq_ediv,
      show Int.sign 1000 = 1 from rfl]
    split <;> omega
  exact ⟨⟨_, hdecoded⟩, dif_pos hdecoded, rfl⟩

theorem mapM_stringPair (pairs : List (String × String)) :
    (pairs.map fun pair => (pair.1, JsonbValue.string pair.2)).mapM stringPair = some pairs := by
  induction pairs with
  | nil => rfl
  | cons pair pairs ih =>
      rw [List.map_cons, List.mapM_cons, ih]
      rfl

/-- The metadata are read back from whatever order their object is stored in. -/
theorem stringMap_stored {metadata : Metadata} {stored : List (String × JsonbValue)}
    (h : stored.Perm (ledgerMetadataJson metadata)) :
    stringMap (.object stored) = some metadata := by
  simp only [stringMap, orderByKeyBytes_perm h, ledgerMetadataJson, mapM_stringPair,
    Option.bind_eq_bind, Option.bind_some]
  exact dif_pos metadata.sorted

theorem ledgerKind_written {entry : LedgerEntry} {table : LedgerTable} {entryType : String}
    (written : WrittenAs entry table entryType) {response : LedgerEntryResponse}
    (hledger : response.ledger = LedgerTable.namespace table)
    (htype : response.entryType = entryType) : ledgerKind response = .ok entry.kind := by
  rw [ledgerKind_eq_ok, hledger, htype]
  cases written with
  | reserveRelease purpose kind =>
      rw [kind]
      cases purpose <;> rfl
  | consumerDeduction kind => rw [kind]; rfl
  | nodeReward kind => rw [kind]; rfl
  | bootstrapGrant kind => rw [kind]; rfl
  | operatorGrant kind => rw [kind]; rfl
  | nodeContribution kind => rw [kind]; rfl
  | settlementInflow kind => rw [kind]; rfl

/-- The entry that is read back: the one that was built, at the stored instant. -/
structure ReadBack {digest : List UInt8 → String} (built : BuiltRow digest)
    (entry : LedgerEntry) : Prop where
  same : entry = { built.entry with createdAt := entry.createdAt }
  instant : entry.createdAt.unixTimestampNanos =
    built.reading * 1000 + postgresEpochUnixSeconds * 1000000000

variable {digest : List UInt8 → String}

theorem readEntry_built (built : BuiltRow digest) :
    ∃ entry, readEntry built.table built.row = some entry ∧ ReadBack built entry := by
  obtain ⟨decoded, hdecoded, hinstant⟩ := decodeTimestamptz_stored built.entry.createdAt
  obtain ⟨-, haccount, -⟩ := built.written.spec built.stored built.auditReference
  have hversion : built.entry.hashVersion = 2 :=
    (LedgerEntry.validate_eq_ok.mp built.valid).1.hashVersion
  have hstatus : recomputationStatus built.entry.hashVersion =
      some .canonicalV2Recomputable := by
    rw [hversion]
    rfl
  have hmetadata := stringMap_stored built.enumerated
  obtain ⟨response, hresponse, hledger, htype, hcanonical⟩ : ∃ response,
      HistoryRow.responseIn ⟨built.table.scope, built.entry.accountId, built.row, none⟩
        (LedgerTable.namespace built.table) = .ok response ∧
      response.ledger = LedgerTable.namespace built.table ∧
      response.entryType = built.entryType ∧ ∀ kind, response.canonical kind =
        { built.entry with kind, createdAt := decoded } := by
    simp only [HistoryRow.responseIn, bind_eq_ok, fetchOne_eq_ok, rejectIf_eq_ok, exists_const]
    exact ⟨_, ⟨_, hstatus, _, hmetadata, by simp, decoded, hdecoded, rfl⟩, rfl, rfl,
      fun _ => rfl⟩
  have hkind := ledgerKind_written built.written hledger htype
  refine ⟨{ built.entry with createdAt := decoded }, ?_, rfl, hinstant⟩
  have haccount' : built.table.accountId built.row.toLedgerValues = .ok built.entry.accountId :=
    haccount
  simp only [readEntry, haccount', hresponse, hkind, Except.toOption, Option.bind_eq_bind,
    Option.bind_some, hcanonical]
  rfl

/-- The head that a slice is audited with advances exactly when the trigger, run for
the stored row on the head of its own ledger, does. -/
theorem advance_isSome_iff (built : BuiltRow digest) {head : LedgerHead}
    (notGenesis : built.entry.hash ≠ genesisHash) :
    (StoredHead.advance ⟨built.table.scope, built.entry.accountId, head.hash, head.balance⟩
      built.entry).isSome = true ↔ Extends head built.values built.entry.hash := by
  obtain ⟨hscope, -, -⟩ := built.written.spec built.stored built.auditReference
  rw [Option.isSome_iff_exists]
  simp only [StoredHead.advance_eq_some, exists_and_left, exists_eq, and_true]
  constructor
  · rintro ⟨-, -, previous, before, after⟩
    exact ⟨notGenesis, previous, before, after⟩
  · intro extends_
    exact ⟨hscope.symm, trivial, extends_.previous, extends_.before, extends_.after⟩

/-- The stored instant is hashed like the one the entry was built with. -/
theorem ReadBack.micros {built : BuiltRow digest} {entry : LedgerEntry}
    (h : ReadBack built entry) : entry.createdAtUnixMicros = built.entry.createdAtUnixMicros := by
  have hinstant := h.instant
  simp only [LedgerEntry.createdAtUnixMicros, hinstant, add_sub_cancel_right, BuiltRow.reading,
    sqlxTimestamptz]
  rw [Int.mul_tdiv_cancel _ (by decide)]

/-- What is read back is as valid as what was built. -/
theorem ReadBack.valid {built : BuiltRow digest} {entry : LedgerEntry}
    (h : ReadBack built entry) : entry.validate digest = .ok () := by
  obtain ⟨fields, bytes, hbytes, hhash⟩ := LedgerEntry.validate_eq_ok.mp built.valid
  have hmicros := h.micros
  rw [h.same] at hmicros ⊢
  refine LedgerEntry.validate_eq_ok.mpr ⟨{ fields with }, bytes, ?_, hhash⟩
  rw [← hbytes]
  unfold LedgerEntry.canonicalBytes
  rw [hmicros]
  rfl

end Reading

section Chains
variable {digest : List UInt8 → String} {entries : List LedgerEntry}

/-- No instant lies before the one in front of it. -/
def InstantsOrdered (first : Option OffsetDateTime) (entries : List LedgerEntry) : Prop :=
  (first.toList ++ entries.map LedgerEntry.createdAt).IsChain fun a b =>
    a.unixTimestampNanos ≤ b.unixTimestampNanos

/-- All that `validateChain` checks. -/
theorem validateChainFrom_eq_ok {expected : String} {timestamp : Option OffsetDateTime}
    {u : Unit} :
    validateChainFrom digest expected timestamp entries = .ok u ↔
      entryLinks.Linked expected entries ∧
      (∀ entry ∈ entries, entry.validate digest = .ok ()) ∧
      InstantsOrdered timestamp entries := by
  induction entries generalizing expected timestamp with
  | nil => cases timestamp <;> simp [validateChainFrom, InstantsOrdered]
  | cons entry rest ih =>
      have hordered : InstantsOrdered timestamp (entry :: rest) ↔
          ¬ (∃ instant ∈ timestamp,
            entry.createdAt.unixTimestampNanos < instant.unixTimestampNanos) ∧
          InstantsOrdered (some entry.createdAt) rest := by
        cases timestamp <;> simp [InstantsOrdered]
      simp only [validateChainFrom, bind_eq_ok, exists_const, rejectIf_eq_ok, not_not, ih,
        hordered, List.forall_mem_cons]
      constructor
      · rintro ⟨_, valid, link, instant, linked, all, ordered⟩
        exact ⟨⟨link, linked⟩, ⟨valid, all⟩, instant, ordered⟩
      · rintro ⟨⟨link, linked⟩, ⟨valid, all⟩, instant, ordered⟩
        exact ⟨(), valid, link, instant, linked, all, ordered⟩

theorem mapM_readEntry {written : List (BuiltRow digest)} {table : LedgerTable}
    (htable : ∀ built ∈ written, built.table = table) :
    ∃ entries, (written.map BuiltRow.row).mapM (readEntry table) = some entries ∧
      List.Forall₂ ReadBack written entries := by
  induction written with
  | nil => exact ⟨[], rfl, .nil⟩
  | cons built rest ih =>
      obtain ⟨hbuilt, hrest⟩ := List.forall_mem_cons.mp htable
      obtain ⟨entry, hread, hback⟩ := readEntry_built built
      obtain ⟨entries, hentries, hall⟩ := ih hrest
      refine ⟨entry :: entries, ?_, .cons hback hall⟩
      rw [List.map_cons, List.mapM_cons, ← hbuilt, hread, hbuilt, hentries]
      rfl

theorem linked_readBack {written : List (BuiltRow digest)}
    (h : List.Forall₂ ReadBack written entries) {start : String} :
    entryLinks.Linked start entries ↔ rowLinks.Linked start (written.map BuiltRow.row) := by
  induction h generalizing start with
  | nil => exact Iff.rfl
  | @cons built entry written entries hback _ ih =>
      have hprevious : entryLinks.previous entry = rowLinks.previous built.row := by
        rw [hback.same]
        rfl
      have hdigest : entryLinks.digest entry = rowLinks.digest built.row := by
        rw [hback.same]
        rfl
      rw [List.map_cons, HashChain.Links.Linked, HashChain.Links.Linked, hprevious, hdigest, ih]

theorem valid_readBack {written : List (BuiltRow digest)}
    (h : List.Forall₂ ReadBack written entries) :
    ∀ entry ∈ entries, entry.validate digest = .ok () := by
  induction h with
  | nil => simp
  | cons hback _ ih => exact List.forall_mem_cons.mpr ⟨hback.valid, ih⟩

theorem instants_readBack {written : List (BuiltRow digest)}
    (h : List.Forall₂ ReadBack written entries) :
    InstantsOrdered none entries ↔ (written.map BuiltRow.reading).IsChain (· ≤ ·) := by
  have hnanos : (entries.map LedgerEntry.createdAt).map OffsetDateTime.unixTimestampNanos =
      (written.map BuiltRow.reading).map fun reading =>
        reading * 1000 + postgresEpochUnixSeconds * 1000000000 := by
    induction h with
    | nil => rfl
    | cons hback _ ih => simp only [List.map_cons, hback.instant, ih]
  have hleft : InstantsOrdered none entries ↔ ((entries.map LedgerEntry.createdAt).map
      OffsetDateTime.unixTimestampNanos).IsChain (· ≤ ·) := (List.isChain_map _).symm
  rw [hleft, hnanos, List.isChain_map]
  simp only [add_le_add_iff_right]
  have hscale (a b : Int) : a * 1000 ≤ b * 1000 ↔ a ≤ b := by omega
  simp only [hscale]

/-- Read back in link order, rows that form a chain are a slice of valid and linked
entries; whether it validates is a matter of the clock readings. -/
theorem validateChain_built {written : List (BuiltRow digest)} {table : LedgerTable}
    (htable : ∀ built ∈ written, built.table = table)
    (linked : rowLinks.Linked genesisHash (written.map BuiltRow.row)) :
    ∃ entries, (written.map BuiltRow.row).mapM (readEntry table) = some entries ∧
      (validateChain digest entries = .ok () ↔
        (written.map BuiltRow.reading).IsChain (· ≤ ·)) := by
  obtain ⟨entries, hread, hback⟩ := mapM_readEntry htable
  refine ⟨entries, hread, ?_⟩
  rw [validateChain, validateChainFrom_eq_ok, linked_readBack hback, instants_readBack hback]
  exact ⟨fun h => h.2.2, fun h => ⟨linked, valid_readBack hback, h⟩⟩

end Chains

section Writers
variable {digest : List UInt8 → String} {db : LedgerDb}

/-- Every row of every ledger has been built by the service. -/
def AllBuilt (digest : List UInt8 → String) (db : LedgerDb) : Prop :=
  ∀ table, ∀ row ∈ db.table table, ∃ built : BuiltRow digest,
    built.table = table ∧ built.row = row

theorem mem_table_foldl {changes : List Change} {table : LedgerTable} {row : LedgerRow} :
    row ∈ (changes.foldl LedgerDb.apply db).table table ↔
      row ∈ db.table table ∨ .appendRow table row ∈ changes := by
  induction changes generalizing db with
  | nil => simp
  | cons change rest ih =>
      rw [List.foldl_cons, ih, List.mem_cons]
      cases change with
      | putAccount account => cases table <;> simp [LedgerDb.apply, LedgerDb.table]
      | putReserve account => cases table <;> simp [LedgerDb.apply, LedgerDb.table]
      | appendRow written stored =>
          rw [LedgerDb.table_appendRow]
          by_cases hw : written = table
          · subst hw
            simp only [if_true, List.mem_append, List.mem_singleton, Change.appendRow.injEq,
              true_and, or_assoc]
          · simp [hw, Ne.symm hw]

/-- The trigger on the ledger tables returns the hash that the writer has claimed. -/
theorem hash_of_validated {table : LedgerTable} {values : LedgerValues} {claimed hash : String}
    (h : mindoneValidateCanonicalLedgerHash digest table values (some claimed) = .ok hash) :
    hash = claimed := by
  unfold mindoneValidateCanonicalLedgerHash at h
  cases hmetadata : values.metadata with
  | other => simp [hmetadata, bind_eq_ok] at h
  | object entries =>
      simp only [hmetadata, bind_eq_ok, rejectIf_eq_ok, exists_const, Option.mem_some_iff,
        exists_eq_left', not_not] at h
      obtain ⟨-, -, -, _, -, expected, -, hclaimed, hhash⟩ := h
      exact (Except.ok.inj hhash).symm.trans hclaimed.symm

/-- The head of a ledger is advanced by a change of its account. -/
theorem advance_ne_appendRow {table written : LedgerTable} {values : LedgerValues}
    {hash : String} {advanced : Change} {row : LedgerRow}
    (h : table.advance db values hash = .ok advanced) : advanced ≠ .appendRow written row := by
  cases table with
  | quotaLedger =>
      obtain ⟨account, -, -, -, -, rfl⟩ := mindoneAdvanceQuotaLedgerHead_spec h
      exact fun h => by cases h
  | contributionLedger =>
      obtain ⟨account, -, -, -, -, rfl⟩ := mindoneAdvanceContributionLedgerHead_spec h
      exact fun h => by cases h
  | reserveLedger =>
      obtain ⟨-, -, rfl⟩ := mindoneAdvanceReserveLedgerHead_spec h
      exact fun h => by cases h

/-- Only the insert of a ledger row appends one. -/
theorem insert_of_appendRow {schema : Schema} {operation : RowOperation}
    {changes : List Change} {table : LedgerTable} {row : LedgerRow}
    (h : operation.execute schema db = .ok changes) (hrow : .appendRow table row ∈ changes) :
    ∃ values claimed hash, operation = .insertLedger table values claimed ∧
      mindoneValidateCanonicalLedgerHash schema.digest table values claimed = .ok hash ∧
      row = { values with entryHash := hash } := by
  cases operation with
  | insertLedger written values claimed =>
      obtain ⟨hash, advanced, validated, hadvance, -, -, rfl⟩ := insertLedger_spec h
      rcases List.mem_cons.mp hrow with hsame | hsame
      · exact absurd hsame.symm (advance_ne_appendRow hadvance)
      · cases List.mem_singleton.mp hsame
        exact ⟨values, claimed, hash, rfl, validated, rfl⟩
  | insertAccount new =>
      simp only [RowOperation.execute, bind_eq_ok, rejectIf_eq_ok, exists_const] at h
      obtain ⟨_, -, _, -, -, -, hchanges⟩ := h
      cases hchanges
      simp at hrow
  | updateAccount userId new =>
      simp only [RowOperation.execute] at h
      split at h
      · cases h
        simp at hrow
      · obtain ⟨change, hupdate, hchanges⟩ := bind_eq_ok.mp h
        cases hchanges
        obtain ⟨rfl, -⟩ := updateQuotaAccountRow_spec hupdate
        simp at hrow
  | deleteAccount userId =>
      simp only [RowOperation.execute] at h
      split at h
      · cases h
        simp at hrow
      · simp [mindoneGuardQuotaAccountLedgerState] at h
  | insertReserve id new => simp [RowOperation.execute, bind_eq_ok] at h
  | updateReserve new =>
      obtain ⟨change, hupdate, hchanges⟩ := bind_eq_ok.mp h
      cases hchanges
      obtain ⟨rfl, -⟩ := updateReserveAccountRow_spec hupdate
      simp at hrow
  | deleteReserve => simp [RowOperation.execute, mindoneGuardReserveAccountLedgerState] at h
  | mutateLedger written id =>
      simp only [RowOperation.execute] at h
      split at h <;> cases h
      simp at hrow
  | lockAccount userId =>
      cases h
      simp at hrow
  | lockReserve =>
      cases h
      simp at hrow

/-- An accepted call of the service appends only rows that it has built. -/
theorem built_of_execute {references : References} {operation : ServiceOperation digest}
    {changes : List Change} {table : LedgerTable} {row : LedgerRow}
    (h : (operation.toRow digest).execute ⟨digest, references⟩ db = .ok changes)
    (hrow : .appendRow table row ∈ changes) :
    ∃ built : BuiltRow digest, built.table = table ∧ built.row = row := by
  obtain ⟨values, claimed, hash, hoperation, validated, rfl⟩ := insert_of_appendRow h hrow
  cases operation with
  | append built =>
      injection hoperation with htable hvalues hclaimed
      subst htable hvalues hclaimed
      have hhash := hash_of_validated validated
      exact ⟨built, rfl, by rw [hhash]; rfl⟩
  | other operation notInsert => exact absurd hoperation (notInsert table values claimed)

theorem AllBuilt.statement {references : References}
    {operations : List (ServiceOperation digest)} {changes : List Change}
    (h : AllBuilt digest db)
    (hexec : executeStatement ⟨digest, references⟩
      (operations.map (ServiceOperation.toRow digest)) db = .ok changes) :
    AllBuilt digest (changes.foldl LedgerDb.apply db) := by
  induction operations generalizing db changes with
  | nil =>
      cases hexec
      exact h
  | cons operation rest ih =>
      simp only [List.map_cons, executeStatement, bind_eq_ok] at hexec
      obtain ⟨first, hfirst, later, hlater, hchanges⟩ := hexec
      cases hchanges
      rw [List.foldl_append]
      refine ih (fun table row hrow => ?_) hlater
      rcases mem_table_foldl.mp hrow with hold | hnew
      · exact h table row hold
      · exact built_of_execute hfirst hnew

/-- What is kept behind each lock: heads match rows, and rows have been built. -/
def Sound (digest : List UInt8 → String) (lock : Lock) (part : Part) : Prop :=
  part.Holds ∧ match lock, part with
    | .rowId table _, .indexed rows => ∀ row ∈ rows, ∃ built : BuiltRow digest,
        built.table = table ∧ built.row = row
    | _, _ => True

theorem sound_iff : (∀ lock, Sound digest lock (db.part lock)) ↔
    db.Consistent ∧ AllBuilt digest db := by
  constructor
  · intro h
    refine ⟨fun lock => (h lock).1, fun table row hrow => ?_⟩
    exact (h (.rowId table row.id)).2 row (List.mem_filter.mpr ⟨hrow, by simp⟩)
  · rintro ⟨hconsistent, hbuilt⟩ lock
    refine ⟨hconsistent lock, ?_⟩
    cases lock with
    | rowId table id => exact fun row hrow => hbuilt table row (List.mem_filter.mp hrow).1
    | _ => trivial

end Writers

section Reachable
variable {digest : List UInt8 → String} {τ : Type} [DecidableEq τ]
  {sys : System LedgerDb Change Lock τ} {db : LedgerDb} {table : LedgerTable}

theorem AllBuilt.ledgerRows (h : AllBuilt digest db) (table : LedgerTable) (userId : Uuid) :
    ∀ row ∈ ledgerRows db table userId, ∃ built : BuiltRow digest,
      built.table = table ∧ built.row = row := by
  intro row hrow
  cases table with
  | reserveLedger => exact h .reserveLedger row hrow
  | quotaLedger => exact h .quotaLedger row (List.mem_filter.mp hrow).1
  | contributionLedger => exact h .contributionLedger row (List.mem_filter.mp hrow).1

theorem headMatches_ledgerRows (h : db.Consistent) (table : LedgerTable) (userId : Uuid) :
    ∃ head, HeadMatches head (ledgerRows db table userId) := by
  cases table with
  | reserveLedger => exact ⟨_, h.reserve.2⟩
  | quotaLedger =>
      cases hfind : db.accounts.find userId with
      | none => exact ⟨_, (h.noRows hfind).1 ▸ HeadMatches.empty⟩
      | some account =>
          have hkey := Table.key_of_find hfind
          exact ⟨_, hkey ▸ (h.account (hkey.symm ▸ hfind)).2.1⟩
  | contributionLedger =>
      cases hfind : db.accounts.find userId with
      | none => exact ⟨_, (h.noRows hfind).2 ▸ HeadMatches.empty⟩
      | some account =>
          have hkey := Table.key_of_find hfind
          exact ⟨_, hkey ▸ (h.account (hkey.symm ▸ hfind)).2.2⟩

theorem exists_written {rows : List LedgerRow}
    (h : ∀ row ∈ rows, ∃ built : BuiltRow digest, built.table = table ∧ built.row = row) :
    ∃ written : List (BuiltRow digest), written.map BuiltRow.row = rows ∧
      ∀ built ∈ written, built.table = table := by
  induction rows with
  | nil => exact ⟨[], rfl, by simp⟩
  | cons row rest ih =>
      obtain ⟨hrow, hrest⟩ := List.forall_mem_cons.mp h
      obtain ⟨built, htable, rfl⟩ := hrow
      obtain ⟨written, rfl, hall⟩ := ih hrest
      exact ⟨built :: written, rfl, List.forall_mem_cons.mpr ⟨htable, hall⟩⟩

theorem sound_of_reachable (h : (serviceEngine digest).Reachable LedgerDb.initial sys) :
    ((ledgerParts digest).comap (ServiceStatement.toStatement digest)).Consistent
      (Sound digest) sys := by
  refine Engine.Parts.consistent_of_reachable _ (fun statement s changes hs hexec => ?_)
    (sound_iff.mpr ⟨LedgerDb.consistent_initial, ?_⟩) h
  · obtain ⟨hconsistent, hbuilt⟩ := sound_iff.mp hs
    exact sound_iff.mpr ⟨LedgerDb.Consistent.statement hconsistent hexec,
      AllBuilt.statement hbuilt hexec⟩
  · intro table row hrow
    cases table <;> cases hrow

/-- Whatever the processes of the service do, and whatever their clocks say: a ledger
read back in link order is accepted exactly when the clock readings, as they are
stored, never go back along the links. -/
theorem stored_ledger_validates (h : (serviceEngine digest).Reachable LedgerDb.initial sys)
    (hdb : (serviceEngine digest).Sees sys db) (table : LedgerTable) (userId : Uuid) :
    ∃ written : List (BuiltRow digest),
      written.map BuiltRow.row = ledgerRows db table userId ∧
      ∀ stored, stored.Perm (ledgerRows db table userId) →
        ∃ entries, (rowLinks.follow stored stored.length genesisHash).mapM (readEntry table) =
            some entries ∧
          (validateChain digest entries = .ok () ↔
            (written.map BuiltRow.reading).IsChain (· ≤ ·)) := by
  obtain ⟨hconsistent, hbuilt⟩ := sound_iff.mp ((sound_of_reachable h).sees hdb)
  obtain ⟨written, hwritten, htable⟩ := exists_written (hbuilt.ledgerRows table userId)
  obtain ⟨head, hhead⟩ := headMatches_ledgerRows hconsistent table userId
  refine ⟨written, hwritten, fun stored enumerated => ?_⟩
  rw [rowLinks.follow_perm hhead.linked hhead.unforked enumerated, ← hwritten]
  exact validateChain_built htable (hwritten ▸ hhead.linked)

end Reachable

section Sample

/-- The entry of the first grant of a user. -/
def sampleGrantEntry : LedgerEntry where
  hashVersion := 2
  id := .fromU128 1
  accountId := .fromU128 100
  requestId := none
  idempotencyKey := "local-dev-bootstrap:00000000-0000-0000-0000-000000000064"
  kind := .bootstrapGrant
  amountMicro := 1000000
  balanceBeforeMicro := 0
  balanceAfterMicro := 1000000
  createdAt := sampleDebit.createdAt
  previousHash := genesisHash
  metadata := ⟨[("environment", "local-development"), ("provider", "local-development")],
    by decide⟩
  hash := "f2623a1bfa8c35d8cf14f5ef5a2a72fb674bfd050fccc46aad70586ae63310bf"

/-- A second grant, from a process whose clock is one second behind. -/
def sampleBehindEntry : LedgerEntry where
  hashVersion := 2
  id := .fromU128 2
  accountId := .fromU128 100
  requestId := none
  idempotencyKey := "operator-grant:late"
  kind := .operatorGrant
  amountMicro := 500
  balanceBeforeMicro := 1000000
  balanceAfterMicro := 1000500
  createdAt := ⟨1784282399000000000, by decide⟩
  previousHash := "f2623a1bfa8c35d8cf14f5ef5a2a72fb674bfd050fccc46aad70586ae63310bf"
  metadata := ⟨[("operator_id", "ops"), ("reason", "second grant")], by decide⟩
  hash := "dc661e1a8b3e7c014c08823b07f80e05486a025d0a32e82a7a63d1b259a48f52"

def sampleBehindText : String :=
  "14:mindone-ledger1:25:quota36:00000000-0000-0000-0000-000000000002" ++
  "36:00000000-0000-0000-0000-0000000000640:19:operator-grant:late14:operator_grant" ++
  "3:5007:10000007:100050016:1784282399000000" ++
  "64:f2623a1bfa8c35d8cf14f5ef5a2a72fb674bfd050fccc46aad70586ae63310bf1:2" ++
  "11:operator_id3:ops6:reason12:second grant"

/-- SHA-256 in lower-case hexadecimal, on the bytes of the two entries. -/
def sampleBehindDigest (bytes : List UInt8) : String :=
  if bytes = utf8 sampleGrantText then sampleGrantEntry.hash
  else if bytes = utf8 sampleBehindText then sampleBehindEntry.hash
  else ""

def sampleGrantBuilt : BuiltRow sampleBehindDigest where
  entry := sampleGrantEntry
  table := .quotaLedger
  entryType := "bootstrap_grant"
  stored := ledgerMetadataJson sampleGrantEntry.metadata
  auditReference := none
  built := LedgerEntry.new_eq_ok.mpr ⟨by decide +kernel, rfl⟩
  written := .bootstrapGrant rfl
  enumerated := .refl _

def sampleBehindBuilt : BuiltRow sampleBehindDigest where
  entry := sampleBehindEntry
  table := .quotaLedger
  entryType := "operator_grant"
  stored := ledgerMetadataJson sampleBehindEntry.metadata
  auditReference := none
  built := LedgerEntry.new_eq_ok.mpr ⟨by decide +kernel, rfl⟩
  written := .operatorGrant rfl
  enumerated := .refl _

/-- An account is opened with its first grant; another process adds the second one. -/
def sampleWrites : List (ServiceStatement sampleBehindDigest) :=
  [⟨sampleReferences, [.other (.insertAccount (.new (.fromU128 100))) (by simp),
      .append sampleGrantBuilt]⟩,
    ⟨sampleReferences, [.append sampleBehindBuilt]⟩]

/-- The database after some of the sample writes. -/
def sampleStored (writes : Nat) : LedgerDb :=
  (serviceEngine sampleBehindDigest).serial (sampleWrites.take writes) LedgerDb.initial

theorem sampleStored_reachable (writes : Nat) :
    (serviceEngine sampleBehindDigest).Reachable LedgerDb.initial
      (⟨sampleStored writes, fun _ => none⟩ : System LedgerDb Change Lock Nat) :=
  Engine.Reachable.serial 1 .init _

theorem stored_ledger_validates_sample :
    ∃ written : List (BuiltRow sampleBehindDigest),
      written.map BuiltRow.row =
        ledgerRows (sampleStored 1) .quotaLedger (.fromU128 100) ∧
      ∀ stored, stored.Perm (ledgerRows (sampleStored 1) .quotaLedger (.fromU128 100)) →
        ∃ entries, (rowLinks.follow stored stored.length genesisHash).mapM
            (readEntry .quotaLedger) = some entries ∧
          (validateChain sampleBehindDigest entries = .ok () ↔
            (written.map BuiltRow.reading).IsChain (· ≤ ·)) :=
  stored_ledger_validates (sampleStored_reachable 1) (.inl rfl) _ _

/-- The database has taken both grants, and the chain read back from it is refused. -/
theorem stored_ledger_validates_fails :
    ∃ sys : System LedgerDb Change Lock Nat,
      (serviceEngine sampleBehindDigest).Reachable LedgerDb.initial sys ∧
      let rows := ledgerRows sys.committed .quotaLedger (.fromU128 100)
      rows.length = 2 ∧
      ((rowLinks.follow rows rows.length genesisHash).mapM (readEntry .quotaLedger)).map
          (validateChain sampleBehindDigest) =
        some (.error (.invalidLedger "账本时间戳顺序倒退")) := by
  refine ⟨_, sampleStored_reachable 2, ?_⟩
  decide +kernel

end Sample

end MindOne.Quota
