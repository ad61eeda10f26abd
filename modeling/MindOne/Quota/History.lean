import MindOne.Lib.KeysetPages
import MindOne.Coordinator.Ledgers
import MindOne.Quota.Verification

/-!
# The quota history and its pages

A user reads the rows of both ledgers newest first, page by page. The rows are
sorted by their instant and the cursor compares their identifiers, so a page
boundary is only where it should be when the two orders agree.
-/

namespace MindOne.Quota

open CheckedArithmetic Accounting Database Coordinator

/-- The instant that the driver reads from a stored timestamp, when it has one for it. -/
def decodeTimestamptz (micros : Int) : Option OffsetDateTime :=
  let nanos := micros * 1000 + postgresEpochUnixSeconds * 1000000000
  if h : -377705210399000000000 ≤ nanos ∧ nanos < 253402394399000000000 then some ⟨nanos, h⟩
  else none

def recomputationStatus (hashVersion : Int) : Option LedgerRecomputationStatus :=
  if hashVersion = 1 then some .legacyV1Unverifiable
  else if hashVersion = ledgerHashVersion then some .canonicalV2Recomputable
  else none

/-- One pair of a string map. -/
def stringPair : String × JsonbValue → Option (String × String)
  | (key, .string value) => some (key, value)
  | (_, .other) => none

/-- The string map that a JSON object decodes to. No object holds a key twice. -/
def stringMap : Jsonb → Option Metadata
  | .other => none
  | .object entries => do
      let pairs ← (orderByKeyBytes entries).mapM stringPair
      if h : pairs.Pairwise fun a b => byteRank a.1 < byteRank b.1 then some ⟨pairs, h⟩ else none

/-- A row of the query: a ledger row, the name of its ledger and its receipt. -/
structure HistoryRow where
  ledger : String
  accountId : Uuid
  row : LedgerRow
  receiptId : Option Uuid
  deriving DecidableEq

/-- The response for a row once its ledger is known. -/
def HistoryRow.responseIn (self : HistoryRow) (ledger : LedgerNamespace) :
    ApiResult LedgerEntryResponse := do
  let recomputationStatus ← fetchOne (recomputationStatus self.row.hashVersion)
  let metadata ← fetchOne (stringMap self.row.metadata)
  rejectIf (recomputationStatus = .legacyV1Unverifiable ∧ metadata.entries.isEmpty = false)
    .internal
  let createdAt ← fetchOne (decodeTimestamptz self.row.createdAt)
  return {
    ledger
    accountId := self.accountId
    id := self.row.id
    requestId := self.row.requestId
    receiptId := self.receiptId
    idempotencyKey := self.row.idempotencyKey
    entryType := self.row.entryType
    deltaMicro := self.row.deltaMicro
    balanceBeforeMicro := self.row.balanceBeforeMicro
    balanceAfterMicro := self.row.balanceAfterMicro
    createdAt
    prevHash := self.row.prevHash
    hashVersion := self.row.hashVersion
    metadata
    recomputationStatus
    entryHash := self.row.entryHash }

def HistoryRow.response (self : HistoryRow) : ApiResult LedgerEntryResponse :=
  match self.ledger with
  | "quota" => self.responseIn .quota
  | "contribution" => self.responseIn .contribution
  | _ => .error .internal

/-- A ledger row that the constraints of its table let in and the driver can read. -/
structure Readable (row : LedgerRow) : Prop where
  createdAt : (decodeTimestamptz row.createdAt).isSome = true
  metadata : (stringMap row.metadata).isSome = true
  version : row.hashVersion = 1 ∧ row.metadata = .object [] ∨ row.hashVersion = 2

/-- The rows of one user in the two ledgers, and the receipts of the jobs. -/
structure UserLedgers where
  userId : Uuid
  quota : List LedgerRow
  contribution : List LedgerRow
  receipts : Uuid → Option Uuid
  readable : ∀ row ∈ quota ++ contribution, Readable row

namespace UserLedgers

def historyRow (self : UserLedgers) (ledger : String) (row : LedgerRow) : HistoryRow :=
  ⟨ledger, self.userId, row, row.requestId.bind self.receipts⟩

/-- `UNION ALL` of the two ledgers, joined with the receipts. -/
def entries (self : UserLedgers) : List HistoryRow :=
  self.quota.map (self.historyRow "quota") ++
    self.contribution.map (self.historyRow "contribution")

end UserLedgers

/-- `entries.created_at DESC,entries.id DESC`. -/
def HistoryRow.Before (a b : HistoryRow) : Prop :=
  b.row.createdAt < a.row.createdAt ∨
    b.row.createdAt = a.row.createdAt ∧ b.row.id.asU128 ≤ a.row.id.asU128

instance : DecidableRel HistoryRow.Before := fun _ _ => inferInstanceAs (Decidable (_ ∨ _))

/-- The time range of a request, as the handler has parsed and accepted it. -/
structure TimeRange where
  after : Option OffsetDateTime
  before : Option OffsetDateTime
  ordered : ∀ a ∈ after, ∀ b ∈ before, a.unixTimestampNanos < b.unixTimestampNanos

/-- The row lies in the range, whose ends are bound as timestamps of the database. -/
def TimeRange.Matches (range : TimeRange) (row : HistoryRow) : Prop :=
  (∀ after ∈ range.after, sqlxTimestamptz after ≤ row.row.createdAt) ∧
    ∀ before ∈ range.before, row.row.createdAt < sqlxTimestamptz before

instance (range : TimeRange) (row : HistoryRow) : Decidable (range.Matches row) :=
  inferInstanceAs (Decidable (_ ∧ _))

structure HistoryQuery where
  limit : Option Int
  cursor : Option Uuid
  after : Option String
  before : Option String

structure QuotaHistoryResponse where
  entries : List LedgerEntryResponse
  nextCursor : Option Uuid

section Handler
variable (parseRfc3339 : String → Option OffsetDateTime)

def parseTime : Option String → ApiResult (Option OffsetDateTime)
  | none => .ok none
  | some value =>
      match parseRfc3339 value with
      | some instant => .ok (some instant)
      | none => .error (.badRequest "invalid_timestamp" "时间必须使用 RFC 3339 格式")

/-- Both ends of the range, the first one before the second. -/
def parseRange (query : HistoryQuery) : ApiResult TimeRange := do
  let after ← parseTime parseRfc3339 query.after
  let before ← parseTime parseRfc3339 query.before
  if h : ∀ a ∈ after, ∀ b ∈ before, a.unixTimestampNanos < b.unixTimestampNanos then
    .ok ⟨after, before, h⟩
  else .error (.badRequest "invalid_time_range" "after 必须早于 before")

/-- `query.limit.unwrap_or(50).clamp(1, 200)`. -/
def HistoryQuery.pageSize (query : HistoryQuery) : Nat :=
  (max 1 (min 200 (query.limit.getD 50))).toNat

/-- The rows that one query fetches. -/
def selectHistory (ledgers : UserLedgers) (range : TimeRange) (cursor : Option Uuid)
    (limit : Nat) : List HistoryRow :=
  ((ledgers.entries.filter fun row => decide ((∀ id ∈ cursor, row.row.id.asU128 < id.asU128) ∧
    range.Matches row)).insertionSort HistoryRow.Before).take limit

def quotaHistory (ledgers : UserLedgers) (query : HistoryQuery) :
    ApiResult QuotaHistoryResponse := do
  let range ← parseRange parseRfc3339 query
  let rows := selectHistory ledgers range query.cursor query.pageSize
  let nextCursor := rows.getLast?.map fun row => row.row.id
  let entries ← rows.mapM HistoryRow.response
  return { entries, nextCursor }

/-- Follow the cursor from page to page until an empty page. Nothing is returned when
the number of requests runs out or one of them fails. -/
def followCursor (fetch : Option Uuid → ApiResult QuotaHistoryResponse) :
    Nat → Option Uuid → Option (List LedgerEntryResponse)
  | 0, _ => none
  | requests + 1, cursor =>
      match fetch cursor with
      | .error _ => none
      | .ok response =>
          match response.entries with
          | [] => some []
          | _ :: _ =>
              (followCursor fetch requests response.nextCursor).map (response.entries ++ ·)

end Handler

/-- The rows that match the range, newest first. -/
def matching (ledgers : UserLedgers) (range : TimeRange) : List HistoryRow :=
  (ledgers.entries.filter fun row => decide (range.Matches row)).insertionSort HistoryRow.Before

/-- A later instant always comes with a larger identifier, and no identifier comes twice. -/
structure IdsFollowTime (rows : List HistoryRow) : Prop where
  unique : (rows.map fun row => row.row.id).Nodup
  ordered : ∀ a ∈ rows, ∀ b ∈ rows, a.row.createdAt < b.row.createdAt →
    a.row.id.asU128 < b.row.id.asU128

/-- The identifier as the number it is compared by. -/
def HistoryRow.key (self : HistoryRow) : Nat := self.row.id.asU128.toNat

section Order

instance : IsTrans HistoryRow HistoryRow.Before where
  trans a b c hab hbc := by
    simp only [HistoryRow.Before, BitVec.le_def] at *
    omega

instance : Std.Total HistoryRow.Before where
  total a b := by
    simp only [HistoryRow.Before, BitVec.le_def]
    omega

theorem key_injective {a b : HistoryRow} (h : a.key = b.key) : a.row.id = b.row.id :=
  congrArg Uuid.mk (BitVec.eq_of_toNat_eq h)

/-- Identifiers fall along the sorted rows exactly when they follow time. -/
theorem falling_iff {rows : List HistoryRow} :
    (rows.insertionSort HistoryRow.Before).Pairwise (fun a b => b.key < a.key) ↔
      IdsFollowTime rows := by
  have hperm := List.perm_insertionSort HistoryRow.Before rows
  have hsorted := List.pairwise_insertionSort HistoryRow.Before rows
  constructor
  · intro falling
    refine ⟨?_, ?_⟩
    · refine (hperm.map _).nodup_iff.mp (List.pairwise_map.mpr (falling.imp ?_))
      intro a b hkey hid
      exact absurd (congrArg (fun id : Uuid => id.asU128.toNat) hid) hkey.ne'
    · have hforward : (rows.insertionSort HistoryRow.Before).Pairwise fun a b =>
          a.row.createdAt < b.row.createdAt → a.key < b.key := by
        refine (hsorted.and falling).imp ?_
        rintro a b ⟨hbefore, -⟩ hlater
        rcases hbefore with hearlier | ⟨hsame, -⟩ <;> omega
      have hbackward := falling.imp (S := flip fun a b : HistoryRow =>
        a.row.createdAt < b.row.createdAt → a.key < b.key) fun hkey _ => hkey
      intro a ha b hb
      exact List.Pairwise.forall_of_forall_of_flip
        (fun x _ h => absurd h (lt_irrefl x.row.createdAt)) hforward hbackward
        (hperm.mem_iff.mpr ha) (hperm.mem_iff.mpr hb)
  · intro follow
    have hdistinct : (rows.insertionSort HistoryRow.Before).Pairwise
        fun a b => a.row.id ≠ b.row.id :=
      List.pairwise_map.mp ((hperm.map _).nodup_iff.mpr follow.unique)
    refine ((hsorted.and hdistinct).imp_of_mem ?_)
    rintro a b ha hb ⟨hbefore, hne⟩
    rcases hbefore with hearlier | ⟨-, hle⟩
    · exact follow.ordered b (hperm.mem_iff.mp hb) a (hperm.mem_iff.mp ha) hearlier
    · exact lt_of_le_of_ne hle fun hkey => hne (key_injective hkey).symm

end Order

section Pages
variable {parseRfc3339 : String → Option OffsetDateTime} {ledgers : UserLedgers}
  {range : TimeRange} {after before : Option String}

theorem UserLedgers.ledger_name {row : HistoryRow} (h : row ∈ ledgers.entries) :
    (row.ledger = "quota" ∨ row.ledger = "contribution") ∧ Readable row.row := by
  rcases List.mem_append.mp h with hmem | hmem
  all_goals
    obtain ⟨stored, hstored, rfl⟩ := List.mem_map.mp hmem
    refine ⟨by simp [UserLedgers.historyRow], ledgers.readable stored ?_⟩
  · exact List.mem_append_left _ hstored
  · exact List.mem_append_right _ hstored

theorem responseIn_ok {row : HistoryRow} (readable : Readable row.row)
    (ledger : LedgerNamespace) :
    ∃ response, row.responseIn ledger = .ok response ∧ response.id = row.row.id := by
  obtain ⟨createdAt, hcreated⟩ := Option.isSome_iff_exists.mp readable.createdAt
  obtain ⟨metadata, hmetadata⟩ := Option.isSome_iff_exists.mp readable.metadata
  obtain ⟨status, hstatus, hlegacy⟩ : ∃ status,
      recomputationStatus row.row.hashVersion = some status ∧
      (status = .legacyV1Unverifiable → row.row.metadata = .object []) := by
    rcases readable.version with ⟨hversion, hempty⟩ | hversion
    · exact ⟨_, by rw [hversion]; rfl, fun _ => hempty⟩
    · exact ⟨.canonicalV2Recomputable, by rw [hversion]; rfl, fun h => by cases h⟩
  have hkept : ¬ (status = .legacyV1Unverifiable ∧ metadata.entries.isEmpty = false) := by
    rintro ⟨hstate, hentries⟩
    rw [hlegacy hstate] at hmetadata
    cases hmetadata
    cases hentries
  simp only [HistoryRow.responseIn, bind_eq_ok, fetchOne_eq_ok, rejectIf_eq_ok, exists_const]
  exact ⟨_, ⟨status, hstatus, metadata, hmetadata, hkept, createdAt, hcreated, rfl⟩, rfl⟩

/-- Every row of the user has a response, with the identifier of the row. -/
theorem UserLedgers.response_ok {row : HistoryRow} (h : row ∈ ledgers.entries) :
    ∃ response, row.response = .ok response ∧ response.id = row.row.id := by
  obtain ⟨hledger, readable⟩ := UserLedgers.ledger_name h
  unfold HistoryRow.response
  rcases hledger with hname | hname
  · rw [hname]
    exact responseIn_ok readable .quota
  · rw [hname]
    exact responseIn_ok readable .contribution

/-- The page of a query is a page of the matching rows. -/
theorem selectHistory_eq_page (cursor : Option Uuid) (limit : Nat) :
    selectHistory ledgers range cursor limit =
      KeysetPages.page HistoryRow.key (matching ledgers range) limit
        (cursor.map fun id => id.asU128.toNat) := by
  rw [selectHistory, KeysetPages.page, matching, KeysetPages.filter_insertionSort,
    List.filter_filter]
  congr 2
  refine List.filter_congr fun row _ => ?_
  rw [Bool.decide_and, KeysetPages.below]
  congr 2
  cases cursor with
  | none => simp
  | some id => simp [HistoryRow.key, BitVec.lt_def]

/-- The requests of a walk: one limit and one range, with the cursor of each page. -/
def fetchPage (parseRfc3339 : String → Option OffsetDateTime) (ledgers : UserLedgers)
    (limit : Option Int) (after before : Option String) (cursor : Option Uuid) :
    ApiResult QuotaHistoryResponse :=
  quotaHistory parseRfc3339 ledgers ⟨limit, cursor, after, before⟩

theorem mapM_response {rows : List HistoryRow} {shown : HistoryRow → LedgerEntryResponse}
    (h : ∀ row ∈ rows, row.response = .ok (shown row)) :
    rows.mapM HistoryRow.response = .ok (rows.map shown) := by
  induction rows with
  | nil => rfl
  | cons row rest ih =>
      obtain ⟨hrow, hrest⟩ := List.forall_mem_cons.mp h
      rw [List.mapM_cons, hrow, ih hrest]
      rfl

/-- Following the cursor is a walk over the matching rows. -/
theorem followCursor_eq_walk {shown : HistoryRow → LedgerEntryResponse}
    (hshown : ∀ row ∈ matching ledgers range, row.response = .ok (shown row))
    (accepted : ∀ limit cursor, parseRange parseRfc3339 ⟨limit, cursor, after, before⟩ =
      .ok range) (limit : Option Int) (requests : Nat) (cursor : Option Uuid) :
    followCursor (fetchPage parseRfc3339 ledgers limit after before) requests cursor =
      (KeysetPages.walk HistoryRow.key (matching ledgers range)
        (HistoryQuery.pageSize ⟨limit, cursor, after, before⟩) requests
        (cursor.map fun id => id.asU128.toNat)).map (List.map shown) := by
  induction requests generalizing cursor with
  | zero => rfl
  | succ requests ih =>
      have hrows : ∀ row ∈ selectHistory ledgers range cursor
          (HistoryQuery.pageSize ⟨limit, cursor, after, before⟩),
          row.response = .ok (shown row) := by
        rw [selectHistory_eq_page]
        exact fun row hrow => hshown row (List.mem_filter.mp (List.mem_of_mem_take hrow)).1
      have hfetch : fetchPage parseRfc3339 ledgers limit after before cursor = .ok
          ⟨(selectHistory ledgers range cursor
              (HistoryQuery.pageSize ⟨limit, cursor, after, before⟩)).map shown,
            (selectHistory ledgers range cursor (HistoryQuery.pageSize
              ⟨limit, cursor, after, before⟩)).getLast?.map fun row => row.row.id⟩ := by
        simp only [fetchPage, quotaHistory, bind_eq_ok]
        exact ⟨range, accepted limit cursor, _, mapM_response hrows, rfl⟩
      rw [followCursor, hfetch, selectHistory_eq_page, KeysetPages.walk]
      cases KeysetPages.page HistoryRow.key (matching ledgers range)
          (HistoryQuery.pageSize ⟨limit, cursor, after, before⟩)
          (cursor.map fun id => id.asU128.toNat) with
      | nil => rfl
      | cons row rest =>
          simp only [List.map_cons, ih, Option.map_map, Function.comp_def]
          congr 2
          funext later
          rw [List.map_append, List.map_cons]

/-- The walk always ends. It shows every matching row exactly once, newest first, for
every page size exactly when the identifiers of these rows follow their instants. -/
theorem quotaHistory_pages
    (accepted : ∀ limit cursor, parseRange parseRfc3339 ⟨limit, cursor, after, before⟩ =
      .ok range) :
    (∀ limit, (followCursor (fetchPage parseRfc3339 ledgers limit after before)
      ((matching ledgers range).length + 1) none).isSome = true) ∧
    ∃ shown, (matching ledgers range).mapM HistoryRow.response = .ok shown ∧
      ((∀ limit : Int, 1 ≤ limit →
          followCursor (fetchPage parseRfc3339 ledgers (some limit) after before)
            ((matching ledgers range).length + 1) none = some shown) ↔
        IdsFollowTime (ledgers.entries.filter fun row => decide (range.Matches row))) := by
  have hmember : ∀ row ∈ matching ledgers range, row ∈ ledgers.entries := fun row hrow =>
    (List.mem_filter.mp ((List.perm_insertionSort _ _).subset hrow)).1
  have : Nonempty LedgerEntryResponse := ⟨sampleDebitRow⟩
  choose! shown hshown hid using fun row (h : row ∈ ledgers.entries) =>
    UserLedgers.response_ok h
  have hresponse : ∀ row ∈ matching ledgers range, row.response = .ok (shown row) :=
    fun row hrow => hshown row (hmember row hrow)
  refine ⟨fun limit => ?_, _, mapM_response hresponse, ?_⟩
  · rw [followCursor_eq_walk hresponse accepted, Option.isSome_map]
    refine KeysetPages.walk_isSome (Nat.lt_succ_of_le ?_)
    exact List.length_filter_le _ _
  · rw [← falling_iff]
    constructor
    · intro hall
      have hone := hall 1 (le_refl 1)
      rw [followCursor_eq_walk hresponse accepted] at hone
      obtain ⟨out, hout, hsame⟩ := Option.map_eq_some_iff.mp hone
      have hfalling := (KeysetPages.falling_of_walk hout).2
      have hids (rows : List HistoryRow) (hsub : rows ⊆ matching ledgers range) :
          (rows.map shown).map LedgerEntryResponse.id = rows.map fun row => row.row.id := by
        rw [List.map_map]
        exact List.map_congr_left fun row hrow => hid row (hmember row (hsub hrow))
      have hkeys : (matching ledgers range).map (fun row => row.row.id) =
          out.map fun row => row.row.id := by
        rw [← hids _ (List.Subset.refl _), ← hsame, hids out (KeysetPages.subset_of_walk hout)]
      have hbelow (rows : List HistoryRow) : rows.Pairwise (fun a b => b.key < a.key) ↔
          (rows.map fun row => row.row.id).Pairwise
            fun a b => b.asU128.toNat < a.asU128.toNat := by
        rw [List.pairwise_map]
        rfl
      exact (hbelow _).mpr (hkeys ▸ (hbelow out).mp hfalling)
    · intro falling limit hlimit
      have hwalk := KeysetPages.walk_complete_iff.mpr falling
        (HistoryQuery.pageSize ⟨some limit, none, after, before⟩) (by
          simp only [HistoryQuery.pageSize, Option.getD_some]
          omega)
      rw [followCursor_eq_walk hresponse accepted]
      exact congrArg (Option.map (List.map shown)) hwalk

end Pages

section Sample

/-- A grant under the given identifier, stored the given seconds after 2000. -/
def sampleHistoryRow (id : Nat) (seconds : Int) : LedgerRow where
  id := .fromU128 id
  userId := some (.fromU128 100)
  requestId := none
  entryType := "operator_grant"
  deltaMicro := 500
  balanceBeforeMicro := 0
  balanceAfterMicro := 500
  idempotencyKey := "operator-grant"
  prevHash := genesisHash
  hashVersion := 2
  metadata := .object []
  auditReference := none
  createdAt := seconds * 1000000
  entryHash := genesisHash

/-- Two grants; the one that was stored later carries the given identifier. -/
def sampleLedgers (later : Nat) : UserLedgers where
  userId := .fromU128 100
  quota := [sampleHistoryRow 5 1, sampleHistoryRow later 2]
  contribution := []
  receipts := fun _ => none
  readable := by
    intro row hrow
    simp only [List.append_nil, List.mem_cons, List.not_mem_nil, or_false] at hrow
    rcases hrow with rfl | rfl <;> exact ⟨rfl, rfl, .inr rfl⟩

def sampleRange : TimeRange := ⟨none, none, by simp⟩

theorem quotaHistory_pages_sample :
    ∃ shown, (matching (sampleLedgers 6) sampleRange).mapM HistoryRow.response = .ok shown ∧
      ((∀ limit : Int, 1 ≤ limit →
          followCursor (fetchPage (fun _ => none) (sampleLedgers 6) (some limit) none none)
            ((matching (sampleLedgers 6) sampleRange).length + 1) none = some shown) ↔
        IdsFollowTime
          ((sampleLedgers 6).entries.filter fun row => decide (sampleRange.Matches row))) :=
  (quotaHistory_pages fun _ _ => rfl).2

/-- The later row has the smaller identifier: with pages of one row the other is never
shown, though both rows match. -/
theorem quotaHistory_pages_fails :
    (matching (sampleLedgers 4) sampleRange).map (fun row => row.row.id) =
        [.fromU128 4, .fromU128 5] ∧
      (followCursor (fetchPage (fun _ => none) (sampleLedgers 4) (some 1) none none) 3
        none).map (List.map LedgerEntryResponse.id) = some [.fromU128 4] := by
  decide +kernel

end Sample

end MindOne.Quota
